import Pseudonym.Proofs.ByteOrder
import Pseudonym.Proofs.Model.History
import Pseudonym.Proofs.Renaming.Outcome
import Pseudonym.Renaming.Mapping

/-!
# Names that a mapping finds

A mapping is looked up by halving the stretch of entries in which an old name can be.  Among entries
in strictly ascending order, the one with the name is never lost (`narrow_eq`): the entry in the
middle comes after the name exactly if the name lies before the middle.  So what is found is what is
there (`typeName_eq_some_iff`).

The entries of a mapping are sorted, and since no two types of a model that can be reached share an
old name, they ascend strictly.  What the mapping finds for a name is then the name that the type of
the program now has, and nothing for types of libraries and names that the model does not know
(`type_names_are_found`).
-/

namespace Pseudonym
namespace Mapping

/-- Whether entries are in strictly ascending order of their old names. -/
def AreAscending (entries : List TypeEntry) : Prop :=
  entries.Pairwise (·.oldName < ·.oldName)

variable {entries : List TypeEntry} {e e' : TypeEntry} {index index' first count : Nat}

/-! ## Halving -/

lemma AreAscending.lt (h : AreAscending entries) (he : entries[index]? = some e)
    (he' : entries[index']? = some e') (hlt : index < index') : e.oldName < e'.oldName := by
  obtain ⟨hindex, rfl⟩ := List.getElem?_eq_some_iff.1 he
  obtain ⟨hindex', rfl⟩ := List.getElem?_eq_some_iff.1 he'
  exact List.pairwise_iff_getElem.1 h index index' hindex hindex' hlt

lemma AreAscending.lt_iff (h : AreAscending entries) (he : entries[index]? = some e)
    (he' : entries[index']? = some e') : e.oldName < e'.oldName ↔ index < index' := by
  refine ⟨fun hname => ?_, h.lt he he'⟩
  rcases Nat.lt_trichotomy index index' with hlt | rfl | hgt
  · exact hlt
  · obtain rfl := Option.some.inj (he.symm.trans he')
    exact absurd hname (String.lt_irrefl _)
  · exact absurd hname (String.lt_asymm (h.lt he' he hgt))

/-- The entry with a name is what is left of every stretch that it is in. -/
theorem AreAscending.narrow_eq (h : AreAscending entries) (he : entries[index]? = some e)
    (hfirst : first ≤ index) (hlast : index < first + count)
    (hsize : first + count ≤ entries.length) :
    narrow entries.toArray e.oldName first count = index := by
  induction count using Nat.strongRecOn generalizing first with
  | ind count ih =>
    rw [narrow]
    split
    · -- There is only one left.
      omega
    · have hmiddle : first + count / 2 < entries.length := by omega
      have hget : entries.toArray[first + count / 2]? = some entries[first + count / 2] := by
        rw [List.getElem?_toArray, List.getElem?_eq_getElem hmiddle]
      have hiff := h.lt_iff he (List.getElem?_eq_getElem hmiddle)
      dsimp only
      rw [hget, Option.any_some]
      by_cases hbefore : index < first + count / 2
      · rw [decide_eq_true (hiff.2 hbefore), if_pos rfl]
        exact ih _ (by omega) hfirst (by omega) (by omega)
      · rw [decide_eq_false (hbefore ∘ hiff.1), if_neg Bool.false_ne_true]
        exact ih _ (by omega) (by omega) (by omega) (by omega)

/-- What is found under a name among ascending entries is what is there. -/
theorem typeName_eq_some_iff {mapping : Mapping} (h : AreAscending mapping.types)
    {oldName newName : String} : mapping.typeName oldName = some newName ↔
      ∃ e ∈ mapping.types, e.oldName = oldName ∧ e.newName = newName := by
  rw [typeName]
  simp only [List.getElem?_toArray, List.size_toArray, Option.map_eq_some_iff,
    Option.filter_eq_some_iff, decide_eq_true_eq]
  constructor
  · rintro ⟨e, ⟨he, hold⟩, hnew⟩
    exact ⟨e, List.mem_of_getElem? he, hold, hnew⟩
  · rintro ⟨e, he, rfl, rfl⟩
    obtain ⟨index, hindex⟩ := List.mem_iff_getElem?.1 he
    have hlt := (List.getElem?_eq_some_iff.1 hindex).1
    have hnarrow : narrow mapping.types.toArray e.oldName 0 mapping.types.length = index :=
      h.narrow_eq hindex (Nat.zero_le index) (by omega) (by omega)
    exact ⟨e, ⟨hnarrow ▸ hindex, rfl⟩, rfl⟩

end Mapping

/-! ## The entries of a model -/

namespace Model

variable {m : Model}

lemma types_perm (m : Model) :
    (Mapping.ofModel m).types.Perm (m.programTypes.map Mapping.TypeEntry.of) :=
  List.mergeSort_perm _ _

lemma IsSound.nodup_programTypes (h : m.IsSound) :
    m.programTypes.Pairwise (·.name ≠ ·.name) := by
  rw [programTypes, List.pairwise_filterMap]
  refine (List.pairwise_map.1 h.distinct).imp ?_
  intro d d' hne t ht t' ht'
  cases d <;> cases d' <;> cases ht <;> cases ht'
  exact hne

/-- Entries of types with different names ascend strictly once they are sorted. -/
lemma IsSound.areAscending (h : m.IsSound) : Mapping.AreAscending (Mapping.ofModel m).types := by
  have hsorted : (Mapping.ofModel m).types.Pairwise (·.oldName ≤ ·.oldName) := by
    refine (List.pairwise_mergeSort ?_ ?_ _).imp of_decide_eq_true
    · intro a b c hab hbc
      exact decide_eq_true (String.le_trans (of_decide_eq_true hab) (of_decide_eq_true hbc))
    · intro a b
      simpa using String.le_total a.oldName b.oldName
  have hdistinct : (Mapping.ofModel m).types.Pairwise (·.oldName ≠ ·.oldName) := by
    refine (m.types_perm.pairwise_iff fun hne => hne.symm).2 ?_
    exact List.pairwise_map.2 h.nodup_programTypes
  refine (hsorted.and hdistinct).imp fun ⟨hle, hne⟩ => ?_
  by_contra hnot
  exact hne (String.le_antisymm hle (String.not_lt.1 hnot))

/-- What a type of the program is now called, and by which old name it is known. -/
lemma IsSound.typeName_iff (h : m.IsSound) {oldName newName : String} :
    (Mapping.ofModel m).typeName oldName = some newName ↔
      ∃ t ∈ m.programTypes, t.name = oldName ∧ t.currentName = newName := by
  rw [Mapping.typeName_eq_some_iff h.areAscending]
  simp only [m.types_perm.mem_iff, List.mem_map]
  constructor
  · rintro ⟨e, ⟨t, ht, rfl⟩, hold, hnew⟩
    exact ⟨t, ht, hold, hnew⟩
  · rintro ⟨t, ht, hold, hnew⟩
    exact ⟨_, ⟨t, ht, rfl⟩, hold, hnew⟩

end Model

/-- The mapping of every model that can be reached has one entry for each type of the program, in
strictly ascending order of the bytes of the old names.  What it finds under an old name is the
current name of the type of the program that bears it; it finds nothing for types of libraries and
for names that the model does not know. -/
theorem type_names_are_found {m : Model} (h : m.IsReachable) :
    (Mapping.ofModel m).types.Perm (m.programTypes.map Mapping.TypeEntry.of) ∧
      (Mapping.ofModel m).types.Pairwise
        (fun e e' => Text.bytesOf e.oldName < Text.bytesOf e'.oldName) ∧
      (∀ oldName newName, (Mapping.ofModel m).typeName oldName = some newName ↔
        ∃ t ∈ m.programTypes, t.name = oldName ∧ t.currentName = newName) ∧
      (∀ n ∈ m.libraryTypes, (Mapping.ofModel m).typeName n.name = none) ∧
      ∀ oldName, m.lookup oldName = none → (Mapping.ofModel m).typeName oldName = none := by
  have hsound := h.isSound
  refine ⟨m.types_perm, ?_, fun _ _ => hsound.typeName_iff, ?_, ?_⟩
  · exact hsound.areAscending.imp Text.bytesOf_lt_iff.2
  · intro n hn
    refine Option.eq_none_iff_forall_ne_some.2 fun newName hfound => ?_
    obtain ⟨t, ht, hname, -⟩ := hsound.typeName_iff.1 hfound
    exact nomatch hsound.eq_of_name (Model.mem_programTypes.1 ht) (Model.mem_libraryTypes.1 hn)
      hname
  · intro oldName hunknown
    refine Option.eq_none_iff_forall_ne_some.2 fun newName hfound => ?_
    obtain ⟨t, ht, hname, -⟩ := hsound.typeName_iff.1 hfound
    exact Model.lookup_eq_none_iff.1 hunknown _ (Model.mem_programTypes.1 ht) hname

/-- A program of two types, the first of which has been given a name, beside a type of a library. -/
def Model.shop : Model :=
  ⟨#[.program ((ProgramType.named "shop.Übersicht").withNewName "x.Y"),
    .library ⟨"lib.Base", none⟩, .program (.named "shop.Zoo")], []⟩

theorem type_names_are_found_shop :
    Model.shop.IsReachable ∧
      (Mapping.ofModel Model.shop).typeName "shop.Übersicht" = some "x.Y" ∧
      (Mapping.ofModel Model.shop).typeName "shop.Zoo" = some "shop.Zoo" ∧
      (Mapping.ofModel Model.shop).typeName "lib.Base" = none ∧
      (Mapping.ofModel Model.shop).typeName "x.Y" = none := by
  have hreachable : Model.shop.IsReachable := Model.isReachable_iff.2 (by decide)
  obtain ⟨-, -, hfound, hlibrary, hunknown⟩ := type_names_are_found hreachable
  refine ⟨hreachable, (hfound _ _).2 ?_, (hfound _ _).2 ?_, ?_, ?_⟩
  · decide
  · decide
  · exact hlibrary ⟨"lib.Base", none⟩ (by decide)
  · exact hunknown "x.Y" (Model.lookup_eq_none_iff.2 (by decide))

end Pseudonym
