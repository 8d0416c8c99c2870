import Pseudonym.Command.Run
import Pseudonym.Proofs.Model.File
import Pseudonym.Proofs.Model.History
import Pseudonym.Proofs.Renaming.Outcome

/-!
# A second pass changes nothing

What a pass has left is written to a file, read again and renamed once more.  Reading brings the
types into another order and so numbers them anew, and the second pass begins with a registry that
knows other names than the first did.  None of this matters, because of what a pass leaves behind
(`IsFinished`): every type has a name for good, and is what finishing makes of some type.  The
naming of types then has nothing to do, and finishing a type twice is the same as finishing it once
(`finished_finished`), whatever the registry knows.

Under other options this is still so for the names of types and members, for a member that has a
name keeps it.  Metadata alone is named again.
-/

namespace Pseudonym

/-- The type without its metadata. -/
def ProgramType.withoutMetadata (t : ProgramType) : ProgramType :=
  { t with metadata := none }

lemma ProgramType.withoutMetadata_with (t : ProgramType) (metadata : Option Metadata) :
    { t with metadata := metadata }.withoutMetadata = t.withoutMetadata := rfl

namespace Model

variable {m m' : Model} {p q : PassOptions} {s : Renaming}

/-! ## What a pass leaves behind -/

/-- Whether a model is one that a pass can leave behind. -/
structure IsFinished (m : Model) (p : PassOptions) : Prop where
  settled : ∀ d ∈ m.types, d.isSettled = true
  types : ∀ t ∈ m.programTypes, ∃ t', t = ProgramType.finished p t'
  modules : p.adaptMetadata = true → Named.inOrder p.memberSequence m.modules = m.modules

theorem isFinished_rename (h : m.rename p = .ok s) : s.model.IsFinished p := by
  obtain ⟨s', hs', htypes, hmodules, -⟩ := m.rename_finished p
  obtain rfl := Except.ok.inj (h.symm.trans hs')
  refine ⟨?_, ?_, ?_⟩
  · intro d hd
    rw [htypes] at hd
    obtain ⟨d', hd', rfl⟩ := Array.mem_map.1 hd
    obtain ⟨id, hid⟩ := Array.mem_iff_getElem?.1 hd'
    have hlt : id < m.size :=
      (m.withTypesNamed_extends p).model.size ▸ (Array.getElem?_eq_some_iff.1 hid).1
    obtain ⟨name, d'', hd'', hsettled, -⟩ := m.withTypesNamed_bears p hlt
    obtain rfl := Option.some.inj (hid.symm.trans hd'')
    exact (d'.isSettled_mapProgram (ProgramType.newName_finished p)).trans hsettled
  · intro t ht
    rw [programTypes_of_types htypes] at ht
    obtain ⟨t', -, rfl⟩ := List.mem_map.1 ht
    exact ⟨t', rfl⟩
  · intro hadapt
    rw [hmodules, if_pos hadapt]
    exact Named.inOrder_inOrder _ _

/-- The order of the types does not matter. -/
lemma IsFinished.programFirst (h : m.IsFinished p) : m.programFirst.IsFinished p where
  settled d hd := by
    rw [← Array.mem_toList_iff, m.programFirst_perm.mem_iff, Array.mem_toList_iff] at hd
    exact h.settled d hd
  types t ht := h.types t (m.programTypes_programFirst ▸ ht)
  modules := h.modules

/-! ## The second pass -/

/-- Types that have their names for good are not named. -/
lemma withTypesNamed_of_settled (h : ∀ d ∈ m.types, d.isSettled = true) (q : PassOptions) :
    (m.withTypesNamed q).model = m := by
  have hgrows := (m.withTypesNamed_extends q).model
  have htypes : (m.withTypesNamed q).model.types = m.types := by
    refine Array.ext_getElem? fun id => ?_
    rcases hgrows.types id with hsame | ⟨t, name, hunnamed, -⟩
    · exact hsame
    · have hnone : m.unnamed? id = none :=
        unnamed?_eq_none_iff.2 fun d hd => h d (Array.mem_of_getElem? hd)
      exact nomatch hnone.symm.trans hunnamed
  calc (m.withTypesNamed q).model
      = ⟨(m.withTypesNamed q).model.types, (m.withTypesNamed q).model.modules⟩ := rfl
    _ = m := by rw [htypes, hgrows.modules]; rfl

/-- What a pass has left is left as it is by another pass with the same options. -/
theorem IsFinished.rename (h : m.IsFinished p) : ∃ s, m.rename p = .ok s ∧ s.model = m := by
  obtain ⟨s, hs, htypes, hmodules, -⟩ := m.rename_finished p
  rw [withTypesNamed_of_settled h.settled p] at htypes
  have hsame : s.model.types = m.types := by
    rw [htypes]
    refine (Array.map_congr_left fun d hd => ?_).trans (Array.map_id m.types)
    cases d with
    | program t =>
      obtain ⟨t', rfl⟩ := h.types t (mem_programTypes.2 hd)
      exact congrArg KnownType.program (t'.finished_finished p)
    | library n => rfl
  have hmodules' : s.model.modules = m.modules := by
    rw [hmodules]
    split
    · exact h.modules (by assumption)
    · rfl
  refine ⟨s, hs, ?_⟩
  calc s.model
      = ⟨s.model.types, s.model.modules⟩ := rfl
    _ = m := by rw [hsame, hmodules']

/-- With other options it is left as it is but for its metadata. -/
theorem IsFinished.rename_other (h : m.IsFinished p) (q : PassOptions) :
    ∃ s, m.rename q = .ok s ∧
      s.model.programTypes.map (·.withoutMetadata) = m.programTypes.map (·.withoutMetadata) ∧
      s.model.libraryTypes = m.libraryTypes := by
  obtain ⟨s, hs, htypes, -⟩ := m.rename_finished q
  rw [withTypesNamed_of_settled h.settled q] at htypes
  refine ⟨s, hs, ?_, libraryTypes_of_types htypes⟩
  rw [programTypes_of_types htypes, List.map_map]
  refine List.map_congr_left fun t ht => ?_
  obtain ⟨t', rfl⟩ := h.types t ht
  rw [Function.comp_apply, t'.finished_finished_eq p q]
  exact ProgramType.withoutMetadata_with _ _

/-! ## Through a file -/

@[simp] lemma mapping_programFirst (m : Model) :
    Mapping.ofModel m.programFirst = Mapping.ofModel m := by
  rw [Mapping.ofModel, Mapping.ofModel, programTypes_programFirst]
  rfl

/-- Whether the text of a model is read as another model. -/
def ReadsBackAs (m m' : Model) : Prop :=
  ∃ file, ModelFile.parse m.toFile.print = .ok file ∧ ofFile file = .ok m'

lemma IsSound.readsBackAs (h : m.IsSound) : m.ReadsBackAs m.programFirst :=
  ⟨m.toFile, ModelFile.parse_print _, h.ofFile_toFile⟩

/-- Where a host holds the text of a model, this is the model that is loaded. -/
lemma ReadsBackAs.readModel (h : m.ReadsBackAs m') {M : Type → Type} [Monad M] [LawfulMonad M]
    {host : Host M} {path : String} (hread : host.read path = pure (.ok m.toFile.print)) :
    host.readModel path = pure m' := by
  obtain ⟨file, hparse, hfile⟩ := h
  have hcheck : ∀ {ε α : Type} (failure : ε → Failure) (x : α),
      (Host.check failure (.ok x) : ExceptT Failure M α) = pure x := fun _ _ => rfl
  rw [Host.readModel, hread]
  simp [hcheck, hparse, hfile]

end Model

/-- Renaming is idempotent through the file.  The text of a renamed model is read again, whoever
holds it.  What is read can be renamed once more, which under the same options gives the same
mapping and the same text, and under any others leaves the types as they are but for their
metadata. -/
theorem second_pass_changes_nothing (m : Model) (hm : m.IsSound) (p : PassOptions) :
    ∃ s m', m.rename p = .ok s ∧ s.model.ReadsBackAs m' ∧
      (∀ (M : Type → Type) [Monad M] [LawfulMonad M] (host : Host M) (path : String),
        host.read path = pure (.ok s.model.toFile.print) → host.readModel path = pure m') ∧
      (∃ s', m'.rename p = .ok s' ∧
        (Mapping.ofModel s'.model).print = (Mapping.ofModel s.model).print ∧
        s'.model.toFile.print = s.model.toFile.print) ∧
      ∀ q : PassOptions, ∃ s', m'.rename q = .ok s' ∧
        s'.model.programTypes.map (·.withoutMetadata) =
          s.model.programTypes.map (·.withoutMetadata) ∧
        s'.model.libraryTypes = s.model.libraryTypes := by
  obtain ⟨s, hs, -⟩ := m.rename_finished p
  have hfinished := (Model.isFinished_rename hs).programFirst
  have hreads := (hm.rename hs).readsBackAs
  refine ⟨s, s.model.programFirst, hs, hreads, ?_, ?_, ?_⟩
  · intro M _ _ host path hread
    exact hreads.readModel hread
  · obtain ⟨s', hs', hsame⟩ := hfinished.rename
    refine ⟨s', hs', ?_, ?_⟩
    · rw [hsame, Model.mapping_programFirst]
    · rw [hsame, Model.toFile_programFirst]
  · intro q
    obtain ⟨s', hs', hprogram, hlibrary⟩ := hfinished.rename_other q
    refine ⟨s', hs', ?_, ?_⟩
    · rw [hprogram, Model.programTypes_programFirst]
    · rw [hlibrary, Model.libraryTypes_programFirst]

/-- A model where an inner type comes before its outer type, and a library type between them. -/
def Model.interleaved : Model where
  types := #[.program ((ProgramType.named "com.acme.Outer$Inner").nestedIn "com.acme.Outer"),
    .library ⟨"java.lang.Object", none⟩,
    .program (((ProgramType.named "com.acme.Outer").withMember
      ⟨.field, "size", "I", false, none⟩).withMetadata (.ofClass ⟨[], [⟨"size", none⟩]⟩))]
  modules := [⟨"app", none⟩]

theorem second_pass_changes_nothing_interleaved :
    Model.interleaved.IsSound ∧ ∃ s m', Model.interleaved.rename default = .ok s ∧
      s.model.ReadsBackAs m' ∧
      (∀ (M : Type → Type) [Monad M] [LawfulMonad M] (host : Host M) (path : String),
        host.read path = pure (.ok s.model.toFile.print) → host.readModel path = pure m') ∧
      (∃ s', m'.rename default = .ok s' ∧
        (Mapping.ofModel s'.model).print = (Mapping.ofModel s.model).print ∧
        s'.model.toFile.print = s.model.toFile.print) ∧
      ∀ q : PassOptions, ∃ s', m'.rename q = .ok s' ∧
        s'.model.programTypes.map (·.withoutMetadata) =
          s.model.programTypes.map (·.withoutMetadata) ∧
        s'.model.libraryTypes = s.model.libraryTypes :=
  ⟨by decide, second_pass_changes_nothing Model.interleaved (by decide) default⟩

end Pseudonym
