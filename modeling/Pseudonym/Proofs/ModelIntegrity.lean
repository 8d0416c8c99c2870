import Pseudonym.Proofs.Model.Filing
import Pseudonym.Proofs.Model.Index

/-!
# Models stay intact

Whatever is done to a model, its old names stay told apart, its numbers go up to its size without a
gap, and its index leads from an old name to the number of the type that bears it.  What is refused
leaves no trace.

The index also settles which files can be read, because types of a file are added like any others.
`ofFile_cases` says that it makes no difference, so what is known about files without an index
(`Model.ofFile_eq_ok_iff`, `Model.ofFile_eq_error_iff`) carries over.
-/

namespace Pseudonym
namespace IndexedModel

variable {a b : IndexedModel} {d : KnownType} {e : ModelError} {file : ModelFile}

/-- What an addition does to a model of which the index is right: either it is accepted, and gives
the next number, or the type offends and everything stays as it was. -/
lemma IsCoherent.add_answers (h : a.IsCoherent) (hsize : a.model.size < 2 ^ 32) (d : KnownType) :
    ((∀ e, ¬ Offends a.model.types.toList d e) ∧ ∃ id b, (add d).run.run a = (.ok id, b) ∧
      id.toNat = a.model.size ∧ b.model = { a.model with types := a.model.types.push d }) ∨
    ∃ e, Offends a.model.types.toList d e ∧ (add d).run.run a = (.error e, a) := by
  rcases h.add_cases d with ⟨m, hadd, hrun⟩ | ⟨e, hadd, hrun⟩
  · obtain ⟨-, rfl, -⟩ := Model.add_cases hadd
    refine .inl ⟨fun e hoffends => ?_, _, _, hrun, UInt32.toNat_ofNat_of_lt' hsize, rfl⟩
    exact nomatch hadd.symm.trans (Model.add_eq_error_iff.2 hoffends)
  · exact .inr ⟨e, Model.add_eq_error_iff.1 hadd, hrun⟩

/-! ## Files -/

lemma isCoherent_ofFile (h : ofFile file = .ok a) :
    a.IsCoherent ∧ Model.ofFile file = .ok a.model := by
  rcases ofFile_cases file with ⟨b, hb, hmodel, hindexed⟩ | ⟨e, -, hindexed⟩
  · obtain rfl := Except.ok.inj (h.symm.trans hindexed)
    exact ⟨hb, hmodel⟩
  · exact nomatch h.symm.trans hindexed

lemma exists_ofFile {m : Model} (h : Model.ofFile file = .ok m) :
    ∃ a, ofFile file = .ok a ∧ a.IsCoherent ∧ a.model = m := by
  rcases ofFile_cases file with ⟨b, hb, hmodel, hindexed⟩ | ⟨e, hmodel, -⟩
  · exact ⟨b, hindexed, hb, Except.ok.inj (hmodel.symm.trans h)⟩
  · exact nomatch h.symm.trans hmodel

lemma exists_ofFile_iff : (∃ a, ofFile file = .ok a) ↔ AreToldApart file.types := by
  constructor
  · rintro ⟨a, h⟩
    exact (Model.ofFile_eq_ok_iff.1 (isCoherent_ofFile h).2).1
  · intro h
    obtain ⟨a, ha, -⟩ := exists_ofFile (Model.ofFile_eq_ok_iff.2 ⟨h, rfl⟩)
    exact ⟨a, ha⟩

lemma ofFile_eq_error_iff : ofFile file = .error e ↔ Model.ofFile file = .error e := by
  rcases ofFile_cases file with ⟨a, -, hmodel, hindexed⟩ | ⟨e', hmodel, hindexed⟩
  · rw [hmodel, hindexed]
    exact iff_of_false (fun h => nomatch h) fun h => nomatch h
  · rw [hmodel, hindexed]
    exact ⟨fun h => congrArg _ (Except.error.inj h), fun h => congrArg _ (Except.error.inj h)⟩

end IndexedModel

/-- Models stay intact, and so do their files.

After any changes, some of which may have been refused, the old names of a model are not empty and
no two are the same.  As long as there are fewer types than 32 bits can count, the numbers of the
types are those below their count, and an old name leads to a number if and only if the type with
this number bears it.  A type that is added gets the next number; a type that cannot be told apart
from the others is refused, and neither the types nor the index change.

A file can be read if and only if all its types can be told apart, and otherwise the first one that
cannot be told apart from those before it is reported.  What has been read gives the same file back,
and what can come about can be read back from its file with new numbers for its types. -/
theorem models_stay_intact :
    (∀ changes, let a := IndexedModel.empty.afterAll changes
      a.model.IsReachable ∧ a.model.IsSound ∧ (a.model.size < 2 ^ 32 →
        (∀ id, (∃ d, a.get id = .ok d) ↔ id.toNat < a.model.size) ∧
        (∀ name id, a.lookup name = some id ↔ ∃ d, a.get id = .ok d ∧ d.name = name) ∧
        ∀ d, ((∀ e, ¬ Offends a.model.types.toList d e) ∧ ∃ id b,
            (IndexedModel.add d).run.run a = (.ok id, b) ∧ id.toNat = a.model.size ∧
            b.model = { a.model with types := a.model.types.push d }) ∨
          ∃ e, Offends a.model.types.toList d e ∧
            (IndexedModel.add d).run.run a = (.error e, a))) ∧
    (∀ file, (∃ a, IndexedModel.ofFile file = .ok a) ↔ AreToldApart file.types) ∧
    (∀ file e, IndexedModel.ofFile file = .error e ↔ ∃ earlier d later,
      file.types = earlier ++ d :: later ∧ AreToldApart earlier ∧ Offends earlier d e) ∧
    (∀ file a, IndexedModel.ofFile file = .ok a → a.model.toFile = file) ∧
    ∀ m : Model, m.IsReachable → ∃ a number, IndexedModel.ofFile m.toFile = .ok a ∧
      m.IsRenumbering number a.model ∧
      ∀ name, a.lookup name = (m.lookup name).map fun id => UInt32.ofNat (number id) := by
  refine ⟨?changes, ?readable, ?reported, ?file, ?model⟩
  case changes =>
    intro changes a
    have ha : a.IsCoherent := IndexedModel.isCoherent_empty.afterAll changes
    refine ⟨ha.reachable, ha.isSound, fun hsize => ⟨?_, ?_, ?_⟩⟩
    · exact fun id => IndexedModel.exists_get_iff
    · exact fun name id => ha.lookup_eq_some_iff hsize
    · exact ha.add_answers hsize
  case readable => exact fun file => IndexedModel.exists_ofFile_iff
  case reported =>
    exact fun file e => IndexedModel.ofFile_eq_error_iff.trans Model.ofFile_eq_error_iff
  case file =>
    intro file a h
    exact Model.toFile_of_ofFile (IndexedModel.isCoherent_ofFile h).2
  case model =>
    intro m h
    obtain ⟨a, hread, ha, hmodel⟩ := IndexedModel.exists_ofFile h.isSound.ofFile_toFile
    refine ⟨a, m.numberInFile, hread, hmodel ▸ h.isSound.isRenumbering, fun name => ?_⟩
    rw [IndexedModel.lookup, ha.index, hmodel, h.isSound.lookup_programFirst, Option.map_map]
    rfl

end Pseudonym
