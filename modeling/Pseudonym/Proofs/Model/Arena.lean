import Mathlib.Data.List.Basic
import Mathlib.Data.List.Nodup
import Pseudonym.Proofs.Renaming.Chain

/-!
# Models that can come about

Types enter a model one by one, and one with an empty name or a name that is in use is refused.  A
model that came about in this way is sound (`isSound_iff_addAll`): no old name is empty, and no two
types share one.  In a sound model an old name stands for one type, so that looking it up gives the
number of the type that bears it (`IsSound.lookup`).

A file can be read if its types, taken in their order, can be told apart by their names
(`ofFile_eq_ok_iff`).  The file form keeps everything but the numbers.  What is read back from it
has the types of the program before those of the libraries, each in the order they had
(`IsSound.ofFile_toFile`).
-/

namespace Pseudonym

/-- The types of a file in the order in which they are added. -/
def ModelFile.types (file : ModelFile) : List KnownType :=
  file.program.map .program ++ file.library.map .library

/-- Whether no type has an empty name and no two types share one. -/
structure AreToldApart (types : List KnownType) : Prop where
  nonempty : ∀ d ∈ types, d.name ≠ ""
  distinct : (types.map KnownType.name).Nodup

namespace Model

variable {m m' : Model} {id : TypeId} {d : KnownType} {name : String} {types : List KnownType}
  {file : ModelFile}

/-- Whether no old name is empty and no two types share one. -/
structure IsSound (m : Model) : Prop where
  nonempty : ∀ d ∈ m.types, d.name ≠ ""
  distinct : (m.types.toList.map KnownType.name).Nodup

instance (m : Model) : Decidable m.IsSound :=
  decidable_of_iff ((∀ d ∈ m.types, d.name ≠ "") ∧ (m.types.toList.map KnownType.name).Nodup)
    ⟨fun h => ⟨h.1, h.2⟩, fun h => ⟨h.nonempty, h.distinct⟩⟩

lemma isSound_iff : m.IsSound ↔ AreToldApart m.types.toList := by
  constructor
  · intro h
    exact ⟨fun d hd => h.nonempty d (Array.mem_toList_iff.1 hd), h.distinct⟩
  · intro h
    exact ⟨fun d hd => h.nonempty d (Array.mem_toList_iff.2 hd), h.distinct⟩

lemma isSound_empty : empty.IsSound :=
  ⟨by simp [empty], by simp [empty]⟩

/-! ## Looking up -/

/-- The types are those with the numbers, in this order. -/
lemma map_some_types (m : Model) : m.types.toList.map some = m.ids.map (m.types[·]?) := by
  refine List.ext_getElem? fun i => ?_
  rw [List.getElem?_map, List.getElem?_map, ids, Array.getElem?_toList]
  by_cases hi : i < m.size
  · rw [List.getElem?_range hi, Option.map_some, Array.getElem?_eq_getElem hi]
    rfl
  · rw [Array.getElem?_eq_none (Nat.le_of_not_lt hi), List.getElem?_eq_none (by simpa using hi)]
    rfl

lemma lookup_eq_none_iff : m.lookup name = none ↔ ∀ d ∈ m.types, d.name ≠ name := by
  rw [lookup, Array.findIdx?_eq_none_iff]
  simp only [decide_eq_false_iff_not]

lemma IsSound.id_eq (h : m.IsSound) {id' : TypeId} {d' : KnownType} (hd : m.types[id]? = some d)
    (hd' : m.types[id']? = some d') (hname : d.name = d'.name) : id = id' := by
  have hnames : (m.types.toList.map KnownType.name)[id]? =
      (m.types.toList.map KnownType.name)[id']? := by
    rw [List.getElem?_map, List.getElem?_map, Array.getElem?_toList, Array.getElem?_toList, hd, hd',
      Option.map_some, Option.map_some, hname]
  have hne := List.nodup_iff_getElem?_ne_getElem?.1 h.distinct
  by_contra hid
  have hlt := (Array.getElem?_eq_some_iff.1 hd).1
  have hlt' := (Array.getElem?_eq_some_iff.1 hd').1
  rcases Nat.lt_or_gt_of_ne hid with hcompare | hcompare
  · exact hne id id' hcompare (by simpa using hlt') hnames
  · exact hne id' id hcompare (by simpa using hlt) hnames.symm

lemma IsSound.eq_of_name (h : m.IsSound) {d' : KnownType} (hd : d ∈ m.types)
    (hd' : d' ∈ m.types) (hname : d.name = d'.name) : d = d' :=
  List.inj_on_of_nodup_map h.distinct (Array.mem_toList_iff.2 hd) (Array.mem_toList_iff.2 hd') hname

/-- An old name that is in the model leads to the one type that has it. -/
theorem IsSound.lookup (h : m.IsSound) (hd : m.types[id]? = some d) :
    m.lookup d.name = some id := by
  cases hfound : m.lookup d.name with
  | none => exact absurd rfl (lookup_eq_none_iff.1 hfound d (Array.mem_of_getElem? hd))
  | some found =>
    obtain ⟨d', hd', hname⟩ := lookup_eq_some hfound
    rw [h.id_eq hd' hd hname]

/-! ## Adding -/

lemma add_eq_ok (hname : d.name ≠ "") (hnew : ∀ d' ∈ m.types, d'.name ≠ d.name) :
    m.add d = .ok (m.size, { m with types := m.types.push d }) := by
  rw [add, if_neg hname, lookup_eq_none_iff.2 hnew]
  rfl

lemma addAll_cons (m : Model) (d : KnownType) (rest : List KnownType) :
    m.addAll (d :: rest) = (Prod.snd <$> m.add d) >>= (·.addAll rest) := rfl

lemma addAll_cons_of_add {rest : List KnownType} (h : m.add d = .ok (id, m')) :
    m.addAll (d :: rest) = m'.addAll rest := by
  rw [addAll_cons, h]
  rfl

/-- If types can be added, then so can the first, and after it the others. -/
lemma exists_of_addAll_cons {rest : List KnownType} (h : m.addAll (d :: rest) = .ok m') :
    ∃ id m₁, m.add d = .ok (id, m₁) ∧ m₁.addAll rest = .ok m' := by
  cases hd : m.add d with
  | error e =>
    rw [addAll_cons, hd] at h
    cases h
  | ok added =>
    rw [addAll_cons_of_add hd] at h
    exact ⟨_, _, rfl, h⟩

/-- What leads to a sound model can be added. -/
lemma addAll_eq_ok (h : IsSound ⟨m.types ++ types.toArray, m.modules⟩) :
    m.addAll types = .ok ⟨m.types ++ types.toArray, m.modules⟩ := by
  induction types generalizing m with
  | nil => simp [addAll, pure, Except.pure]
  | cons d rest ih =>
    have htypes : m.types ++ (d :: rest).toArray = m.types.push d ++ rest.toArray := by simp
    rw [htypes] at h ⊢
    have hname : d.name ≠ "" := h.nonempty d (by simp)
    have hnew : ∀ d' ∈ m.types, d'.name ≠ d.name := by
      intro d' hd' heq
      have hdistinct := h.distinct
      simp only [Array.toList_append, Array.toList_push, List.map_append, List.map_cons,
        List.map_nil] at hdistinct
      have hfirst := (List.nodup_append.1 (List.nodup_append.1 hdistinct).1).2.2
      exact hfirst d'.name (List.mem_map_of_mem (Array.mem_toList_iff.2 hd')) d.name
        (by simp) heq
    rw [addAll_cons_of_add (add_eq_ok hname hnew)]
    exact ih (m := { m with types := m.types.push d }) h

/-- A type that is added is the last one, and was neither without a name nor under one that is in
use. -/
lemma add_cases (hadd : m.add d = .ok (id, m')) :
    id = m.size ∧ m' = { m with types := m.types.push d } ∧ d.name ≠ "" ∧
      ∀ d' ∈ m.types, d'.name ≠ d.name := by
  rw [add] at hadd
  split at hadd
  · exact nomatch hadd
  · rename_i hname
    split at hadd
    · exact nomatch hadd
    · rename_i hnew
      obtain ⟨rfl, rfl⟩ := Prod.mk.inj (Except.ok.inj hadd)
      exact ⟨rfl, rfl, hname, lookup_eq_none_iff.1 (Option.not_isSome_iff_eq_none.1 hnew)⟩

lemma IsSound.add (h : m.IsSound) (hadd : m.add d = .ok (id, m')) : m'.IsSound := by
  obtain ⟨-, rfl, hname, hnew⟩ := add_cases hadd
  refine ⟨?_, ?_⟩
  · intro d' hd'
    rcases Array.mem_push.1 hd' with hd' | rfl
    · exact h.nonempty d' hd'
    · exact hname
  · simp only [Array.toList_push, List.map_append, List.map_cons, List.map_nil]
    refine List.nodup_append.2 ⟨h.distinct, List.nodup_singleton _, ?_⟩
    intro a ha b hb
    obtain ⟨d', hd', rfl⟩ := List.mem_map.1 ha
    rw [List.mem_singleton.1 hb]
    exact hnew d' (Array.mem_toList_iff.1 hd')

/-- What can be added leads to a sound model from a sound one. -/
lemma IsSound.addAll (h : m.IsSound) (hadd : m.addAll types = .ok m') :
    m'.IsSound ∧ m' = ⟨m.types ++ types.toArray, m.modules⟩ := by
  induction types generalizing m with
  | nil =>
    obtain rfl := Except.ok.inj hadd
    exact ⟨h, by simp⟩
  | cons d rest ih =>
    obtain ⟨id, m₁, hd, hrest⟩ := exists_of_addAll_cons hadd
    obtain ⟨hsound, heq⟩ := ih (h.add hd) hrest
    obtain ⟨-, rfl, -⟩ := add_cases hd
    exact ⟨hsound, by simpa using heq⟩

/-- Types can be added one after the other if they are told apart by their names. -/
theorem addAll_empty_eq_ok_iff :
    empty.addAll types = .ok m ↔ AreToldApart types ∧ m = ⟨types.toArray, []⟩ := by
  constructor
  · intro h
    obtain ⟨hsound, rfl⟩ := isSound_empty.addAll h
    rw [empty, Array.empty_append] at hsound ⊢
    exact ⟨isSound_iff.1 hsound, rfl⟩
  · rintro ⟨h, rfl⟩
    have hsound : IsSound ⟨empty.types ++ types.toArray, empty.modules⟩ := by
      rw [empty, Array.empty_append]
      exact isSound_iff.2 h
    rw [addAll_eq_ok hsound, empty, Array.empty_append]

/-- A model is sound if and only if its types can be added one after the other. -/
theorem isSound_iff_addAll :
    m.IsSound ↔ empty.addAll m.types.toList = .ok { m with modules := [] } := by
  rw [addAll_empty_eq_ok_iff, isSound_iff, and_iff_left rfl]

/-- Soundness is a matter of the old names. -/
lemma IsSound.congr (h : m.IsSound)
    (hnames : (m'.types.toList.map KnownType.name).Perm (m.types.toList.map KnownType.name)) :
    m'.IsSound := by
  refine ⟨fun d hd => ?_, hnames.nodup_iff.2 h.distinct⟩
  have hmem := hnames.mem_iff.1 (List.mem_map_of_mem (Array.mem_toList_iff.2 hd))
  obtain ⟨d', hd', heq⟩ := List.mem_map.1 hmem
  rw [← heq]
  exact h.nonempty d' (Array.mem_toList_iff.1 hd')

/-! ## The file form -/

lemma filterMap_map_program (types : List ProgramType) :
    (types.map KnownType.program).filterMap KnownType.program? = types := by
  rw [List.filterMap_map]
  exact List.filterMap_some

lemma ofFile_eq (file : ModelFile) :
    ofFile file = (fun m => { m with modules := file.modules }) <$> empty.addAll file.types := rfl

/-- A file can be read if its types are told apart, and the model has the types of the file. -/
theorem ofFile_eq_ok_iff :
    ofFile file = .ok m ↔ AreToldApart file.types ∧ m = ⟨file.types.toArray, file.modules⟩ := by
  rw [ofFile_eq]
  cases hadd : empty.addAll file.types with
  | error e =>
    refine iff_of_false (fun h => nomatch h) fun ⟨hapart, _⟩ => ?_
    exact nomatch hadd.symm.trans (addAll_empty_eq_ok_iff.2 ⟨hapart, rfl⟩)
  | ok m₁ =>
    obtain ⟨hapart, rfl⟩ := addAll_empty_eq_ok_iff.1 hadd
    constructor
    · intro h
      exact ⟨hapart, (Except.ok.inj h).symm⟩
    · rintro ⟨-, rfl⟩
      rfl

/-- A file is got back from the model that has its types in their order. -/
theorem toFile_types (file : ModelFile) : toFile ⟨file.types.toArray, file.modules⟩ = file := by
  have hlibrary : KnownType.program? ∘ KnownType.library = fun _ => none := rfl
  have hprogram : programTypes ⟨file.types.toArray, file.modules⟩ = file.program := by
    rw [programTypes, ModelFile.types, List.filterMap_append, filterMap_map_program,
      List.filterMap_map, hlibrary]
    simp
  have hlibraries : libraryTypes ⟨file.types.toArray, file.modules⟩ = file.library := by
    rw [libraryTypes, ModelFile.types]
    simp
  rw [toFile, hprogram, hlibraries]

/-- The model with the types of the program before those of the libraries. -/
def programFirst (m : Model) : Model :=
  ⟨(m.programTypes.map KnownType.program ++ m.libraryTypes.map KnownType.library).toArray,
    m.modules⟩

/-- Types of the program and types of libraries are all types. -/
lemma programFirst_perm (m : Model) : m.programFirst.types.toList.Perm m.types.toList := by
  rw [Model.programFirst, programTypes, libraryTypes]
  induction m.types.toList with
  | nil => exact .nil
  | cons d rest ih =>
    cases d with
    | program t => exact ih.cons _
    | library n => exact List.perm_middle.trans (ih.cons _)

lemma IsSound.programFirst (h : m.IsSound) : m.programFirst.IsSound :=
  h.congr (m.programFirst_perm.map _)

@[simp] lemma toFile_programFirst (m : Model) : m.programFirst.toFile = m.toFile :=
  toFile_types m.toFile

@[simp] lemma programTypes_programFirst (m : Model) :
    m.programFirst.programTypes = m.programTypes :=
  congrArg ModelFile.program m.toFile_programFirst

@[simp] lemma libraryTypes_programFirst (m : Model) :
    m.programFirst.libraryTypes = m.libraryTypes :=
  congrArg ModelFile.library m.toFile_programFirst

/-- What is read back from the file form of a sound model is the model with the types of the program
first. -/
theorem IsSound.ofFile_toFile (h : m.IsSound) : ofFile m.toFile = .ok m.programFirst :=
  ofFile_eq_ok_iff.2 ⟨isSound_iff.1 h.programFirst, rfl⟩

end Model
end Pseudonym
