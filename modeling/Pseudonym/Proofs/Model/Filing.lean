import Mathlib.Data.List.Infix
import Mathlib.Data.Set.Function
import Pseudonym.Proofs.Model.Arena

/-!
# Models from their files

A file lists types of the program and, apart from them, types of libraries.  It is read by adding
the former and then the latter, so what counts is whether the types in this order can be told apart
by their names (`ofFile_eq_ok_iff`).  If not, then there is a first type that cannot be added to
those before it, and it is reported (`ofFile_eq_error_iff`).

A file that can be read is got back from its model.  A model that is got back from its file is
another one, because the types of the program now come before those of the libraries.  Each type
takes the number of its place in the file, `numberInFile`, which is all that changes
(`IsSound.isRenumbering`).
-/

namespace Pseudonym

/-- Whether a type cannot be added to earlier ones, and why. -/
inductive Offends (earlier : List KnownType) (d : KnownType) : ModelError → Prop where
  | nameless (h : d.name = "") : Offends earlier d .emptyTypeName
  | repeated (hname : d.name ≠ "") (h : ∃ d' ∈ earlier, d'.name = d.name) :
      Offends earlier d (.duplicateType d.name)

namespace Model

variable {m m' : Model} {id : TypeId} {d : KnownType} {e : ModelError} {types : List KnownType}
  {file : ModelFile}

/-! ## Adding types in order -/

lemma add_eq_error_iff : m.add d = .error e ↔ Offends m.types.toList d e := by
  have hknown : (m.lookup d.name).isSome = true ↔ ∃ d' ∈ m.types.toList, d'.name = d.name := by
    rw [← not_iff_not, Option.not_isSome_iff_eq_none, lookup_eq_none_iff]
    simp
  rw [add]
  constructor
  · intro h
    split at h
    · obtain rfl := Except.error.inj h
      exact .nameless ‹_›
    · split at h
      · obtain rfl := Except.error.inj h
        exact .repeated ‹_› (hknown.1 ‹_›)
      · cases h
  · rintro (hname | ⟨hname, hrepeated⟩)
    · rw [if_pos hname]
    · rw [if_neg hname, if_pos (hknown.2 hrepeated)]

lemma addAll_append (m : Model) (earlier later : List KnownType) :
    m.addAll (earlier ++ later) = m.addAll earlier >>= (·.addAll later) :=
  List.foldlM_append

/-- If types cannot be added, then there is one that cannot be added to those before it. -/
lemma exists_refused (h : m.addAll types = .error e) :
    ∃ earlier d later m', types = earlier ++ d :: later ∧ m.addAll earlier = .ok m' ∧
      m'.add d = .error e := by
  induction types generalizing m with
  | nil => exact nomatch h
  | cons first rest ih =>
    cases hfirst : m.add first with
    | error e' =>
      rw [addAll_cons, hfirst] at h
      obtain rfl := Except.error.inj h
      exact ⟨[], first, rest, m, rfl, rfl, hfirst⟩
    | ok added =>
      rw [addAll_cons_of_add hfirst] at h
      obtain ⟨earlier, d, later, m', rfl, hearlier, herror⟩ := ih h
      refine ⟨first :: earlier, d, later, m', rfl, ?_, herror⟩
      rw [addAll_cons_of_add hfirst, hearlier]

lemma addAll_eq_error {earlier later : List KnownType} (hearlier : m.addAll earlier = .ok m')
    (h : m'.add d = .error e) : m.addAll (earlier ++ d :: later) = .error e := by
  rw [addAll_append, hearlier]
  show (Prod.snd <$> m'.add d) >>= (·.addAll later) = .error e
  rw [h]
  rfl

/-! ## Reading files -/

/-- A file that cannot be read is reported for the first of its types that is not told apart from
those before it. -/
theorem ofFile_eq_error_iff :
    ofFile file = .error e ↔ ∃ earlier d later, file.types = earlier ++ d :: later ∧
      AreToldApart earlier ∧ Offends earlier d e := by
  have hadd : ofFile file = .error e ↔ empty.addAll file.types = .error e := by
    rw [ofFile_eq]
    cases empty.addAll file.types <;> simp [Functor.map, Except.map]
  rw [hadd]
  constructor
  · intro h
    obtain ⟨earlier, d, later, m', htypes, hearlier, herror⟩ := exists_refused h
    obtain ⟨hapart, rfl⟩ := addAll_empty_eq_ok_iff.1 hearlier
    exact ⟨earlier, d, later, htypes, hapart, add_eq_error_iff.1 herror⟩
  · rintro ⟨earlier, d, later, htypes, hapart, hoffends⟩
    rw [htypes]
    apply addAll_eq_error (addAll_empty_eq_ok_iff.2 ⟨hapart, rfl⟩)
    exact add_eq_error_iff.2 hoffends

/-! ## Getting files and models back -/

/-- A file that can be read is the file of what is read. -/
theorem toFile_of_ofFile (h : ofFile file = .ok m) : m.toFile = file := by
  obtain ⟨-, rfl⟩ := ofFile_eq_ok_iff.1 h
  exact toFile_types file

/-! ## New numbers -/

/-- The numbers of the types in the order of the file. -/
def filedIds (m : Model) : List TypeId := m.programIds ++ m.libraryIds

/-- The number of a type that is got back from the file: its place there. -/
def numberInFile (m : Model) (id : TypeId) : TypeId := m.filedIds.idxOf id

/-- Whether a model is another one whose types have been given new numbers, without changing the
order among the types of the program or among those of the libraries. -/
structure IsRenumbering (m : Model) (number : TypeId → TypeId) (m' : Model) : Prop where
  bijective : Set.BijOn number { id | id < m.size } { id | id < m'.size }
  types : ∀ id < m.size, m'.types[number id]? = m.types[id]?
  lookup : ∀ name, m'.lookup name = (m.lookup name).map number
  programOrder : StrictMonoOn number { id | id ∈ m.programIds }
  libraryOrder : StrictMonoOn number { id | id ∈ m.libraryIds }
  programFirst : ∀ id ∈ m.programIds, ∀ id' ∈ m.libraryIds, number id < number id'
  modules : m'.modules = m.modules

/-- Types of one kind are those with the numbers of this kind. -/
lemma map_some_filter (m : Model) (p : KnownType → Bool) :
    (m.types.toList.filter p).map some =
      (m.ids.filter fun id => m.types[id]?.any p).map (m.types[·]?) := by
  have hleft : (m.types.toList.map some).filter (Option.any p) =
      (m.types.toList.filter p).map some := List.filter_map
  have hright : (m.ids.map (m.types[·]?)).filter (Option.any p) =
      (m.ids.filter fun id => m.types[id]?.any p).map (m.types[·]?) := List.filter_map
  rw [← hleft, map_some_types, hright]

lemma filter_program (m : Model) :
    m.types.toList.filter (!·.isLibrary) = m.programTypes.map .program := by
  rw [programTypes]
  induction m.types.toList with
  | nil => rfl
  | cons d rest ih =>
    cases d with
    | program t => exact congrArg (KnownType.program t :: ·) ih
    | library t => exact ih

lemma filter_library (m : Model) :
    m.types.toList.filter (·.isLibrary) = m.libraryTypes.map .library := by
  rw [libraryTypes]
  induction m.types.toList with
  | nil => rfl
  | cons d rest ih =>
    cases d with
    | program t => exact ih
    | library t => exact congrArg (KnownType.library t :: ·) ih

/-- The types that are got back from the file are those with the numbers in its order. -/
lemma map_some_programFirst (m : Model) :
    m.programFirst.types.toList.map some = m.filedIds.map (m.types[·]?) := by
  have hprogram : (m.programTypes.map KnownType.program).map some =
      m.programIds.map (m.types[·]?) := by
    rw [← filter_program, map_some_filter, programIds]
  have hlibrary : (m.libraryTypes.map KnownType.library).map some =
      m.libraryIds.map (m.types[·]?) := by
    rw [← filter_library, map_some_filter, libraryIds]
  rw [Model.programFirst, filedIds, List.map_append, List.map_append, hprogram, hlibrary]

/-- Every number is that of a type of the program or of a library. -/
lemma filedIds_perm (m : Model) : m.filedIds.Perm m.ids := by
  have hlibrary : m.libraryIds = m.ids.filter fun id => !m.types[id]?.any (!·.isLibrary) := by
    refine List.filter_congr fun id hid => ?_
    rw [Array.getElem?_eq_getElem (List.mem_range.1 hid)]
    simp
  rw [filedIds, programIds, hlibrary]
  exact List.filter_append_perm _ m.ids

lemma mem_filedIds_iff : id ∈ m.filedIds ↔ id < m.size :=
  m.filedIds_perm.mem_iff.trans List.mem_range

lemma nodup_filedIds (m : Model) : m.filedIds.Nodup :=
  m.filedIds_perm.nodup_iff.2 List.nodup_range

lemma length_filedIds (m : Model) : m.filedIds.length = m.size :=
  m.filedIds_perm.length_eq.trans List.length_range

@[simp] lemma size_programFirst (m : Model) : m.programFirst.size = m.size :=
  m.programFirst_perm.length_eq

lemma numberInFile_lt (hid : id < m.size) : m.numberInFile id < m.size := by
  rw [← length_filedIds]
  exact List.idxOf_lt_length_iff.2 (mem_filedIds_iff.2 hid)

/-- A type is got back under its new number. -/
lemma getElem?_numberInFile (hid : id < m.size) :
    m.programFirst.types[m.numberInFile id]? = m.types[id]? := by
  have hplace : m.filedIds[m.numberInFile id]? = some id :=
    List.getElem?_idxOf (mem_filedIds_iff.2 hid)
  have hmapped := congrArg (·[m.numberInFile id]?) m.map_some_programFirst
  simp only [List.getElem?_map, hplace, Array.getElem?_toList, Option.map_some] at hmapped
  obtain ⟨d, hd, hsome⟩ := Option.map_eq_some_iff.1 hmapped
  rw [hd, hsome]

lemma bijOn_numberInFile (m : Model) :
    Set.BijOn m.numberInFile { id | id < m.size } { id | id < m.programFirst.size } := by
  rw [size_programFirst]
  refine ⟨fun id hid => numberInFile_lt hid, fun id hid id' hid' heq => ?_, fun place hplace => ?_⟩
  · exact (List.idxOf_inj (mem_filedIds_iff.2 hid)).1 heq
  · have hlt : place < m.filedIds.length := by
      rw [length_filedIds]
      exact hplace
    exact ⟨m.filedIds[place], mem_filedIds_iff.1 (List.getElem_mem hlt),
      m.nodup_filedIds.idxOf_getElem place hlt⟩

/-- In an ascending list the places of numbers are in the order of the numbers. -/
lemma idxOf_lt_idxOf {ids : List TypeId} (h : ids.Pairwise (· < ·)) {id id' : TypeId}
    (hid : id ∈ ids) (hid' : id' ∈ ids) (hlt : id < id') : ids.idxOf id < ids.idxOf id' := by
  have hplace := List.idxOf_lt_length_iff.2 hid
  have hplace' := List.idxOf_lt_length_iff.2 hid'
  by_contra hge
  rcases Nat.lt_or_eq_of_le (Nat.le_of_not_lt hge) with hafter | heq
  · have hlt' := List.pairwise_iff_getElem.1 h _ _ hplace' hplace hafter
    rw [List.getElem_idxOf, List.getElem_idxOf] at hlt'
    exact Nat.lt_asymm hlt hlt'
  · exact Nat.ne_of_gt hlt ((List.idxOf_inj hid').1 heq)

lemma numberInFile_of_program (hid : id ∈ m.programIds) :
    m.numberInFile id = m.programIds.idxOf id :=
  List.idxOf_append_of_mem hid

lemma numberInFile_of_library (hid : id ∈ m.libraryIds) :
    m.numberInFile id = m.programIds.length + m.libraryIds.idxOf id := by
  have hapart : id ∉ m.programIds := fun hprogram =>
    (List.nodup_append.1 m.nodup_filedIds).2.2 id hprogram id hid rfl
  exact List.idxOf_append_of_notMem hapart

lemma strictMonoOn_program (m : Model) :
    StrictMonoOn m.numberInFile { id | id ∈ m.programIds } := by
  intro id hid id' hid' hlt
  rw [numberInFile_of_program hid, numberInFile_of_program hid']
  exact idxOf_lt_idxOf (List.pairwise_lt_range.filter _) hid hid' hlt

lemma strictMonoOn_library (m : Model) :
    StrictMonoOn m.numberInFile { id | id ∈ m.libraryIds } := by
  intro id hid id' hid' hlt
  rw [numberInFile_of_library hid, numberInFile_of_library hid']
  exact Nat.add_lt_add_left (idxOf_lt_idxOf (List.pairwise_lt_range.filter _) hid hid' hlt) _

lemma IsSound.lookup_programFirst (h : m.IsSound) (name : String) :
    m.programFirst.lookup name = (m.lookup name).map m.numberInFile := by
  cases hfound : m.lookup name with
  | none =>
    rw [Option.map_none, lookup_eq_none_iff]
    intro d hd
    have hmem := m.programFirst_perm.mem_iff.1 (Array.mem_toList_iff.2 hd)
    exact lookup_eq_none_iff.1 hfound d (Array.mem_toList_iff.1 hmem)
  | some id =>
    obtain ⟨d, hd, rfl⟩ := lookup_eq_some hfound
    have hid : id < m.size := (Array.getElem?_eq_some_iff.1 hd).1
    exact h.programFirst.lookup ((getElem?_numberInFile hid).trans hd)

/-- What is got back from the file of a sound model is the model with other numbers. -/
theorem IsSound.isRenumbering (h : m.IsSound) :
    m.IsRenumbering m.numberInFile m.programFirst where
  bijective := m.bijOn_numberInFile
  types _ hid := getElem?_numberInFile hid
  lookup := h.lookup_programFirst
  programOrder := m.strictMonoOn_program
  libraryOrder := m.strictMonoOn_library
  programFirst id hid id' hid' := by
    rw [numberInFile_of_program hid, numberInFile_of_library hid']
    exact Nat.lt_add_right _ (List.idxOf_lt_length_iff.2 hid)
  modules := rfl

/-- A library type between two types of the program comes last. -/
example :
    let m : Model := ⟨#[.program (.named "com.Shop"), .library ⟨"java.lang.Object", none⟩,
      .program (.named "com.Till")], []⟩
    m.ids.map m.numberInFile = [0, 2, 1] := by decide

end Model
end Pseudonym
