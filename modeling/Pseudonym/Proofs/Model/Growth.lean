import Mathlib.Data.List.Basic
import Pseudonym.Naming.Seeding
import Pseudonym.Renaming.Enclosing

/-!
# Models gain names

A type is settled if it belongs to a library or has its new name.  Naming types only ever settles
types that were not (`Grows`): settled types stay as they are, and so does everything in the records
of the others.  In particular no old name changes, so that a type that is recorded to lie in another
has the same link from the beginning of a pass to its end (`Grows.link`).
-/

namespace Pseudonym

/-- Whether a type has its name for good. -/
def KnownType.isSettled (d : KnownType) : Bool :=
  d.isLibrary || d.newName.isSome

namespace Model

variable {m m' m'' : Model} {id : TypeId} {t : ProgramType}

/-! ## Settled types -/

lemma unnamed?_eq_some_iff :
    m.unnamed? id = some t ↔ m.types[id]? = some (.program t) ∧ t.newName = none := by
  unfold unnamed?
  cases m.types[id]? with
  | none => simp
  | some d =>
    cases d with
    | library n => simp
    | program t' =>
      simp only [Option.bind_some, Option.isNone_iff_eq_none, Option.ite_none_right_eq_some,
        Option.some.injEq, KnownType.program.injEq]
      exact ⟨fun h => ⟨h.2, h.2 ▸ h.1⟩, fun h => ⟨h.1 ▸ h.2, h.1⟩⟩

lemma unnamed?_eq_none_iff :
    m.unnamed? id = none ↔ ∀ d, m.types[id]? = some d → d.isSettled = true := by
  unfold unnamed?
  cases m.types[id]? with
  | none => simp
  | some d =>
    cases d with
    | library n => simp [KnownType.isSettled, KnownType.isLibrary]
    | program t' =>
      simp [KnownType.isSettled, KnownType.isLibrary, KnownType.newName,
        ← Option.isSome_iff_ne_none]

/-- The names that a model fixes beforehand are those of its settled types. -/
theorem mem_settledNames {name newName : String} :
    (name, newName) ∈ m.settledNames ↔
      ∃ d ∈ m.types, d.isSettled = true ∧ d.name = name ∧ d.currentName = newName := by
  simp only [settledNames, programTypes, libraryTypes, List.mem_append, List.mem_filterMap,
    List.mem_map, Array.mem_toList_iff, Option.map_eq_some_iff]
  constructor
  · rintro (⟨t, ⟨d, hd, hprogram⟩, given, hgiven, hpair⟩ | ⟨n, ⟨d, hd, hlibrary⟩, hpair⟩)
    · cases d with
      | library n => cases hprogram
      | program t' =>
        obtain rfl := Option.some.inj hprogram
        obtain ⟨rfl, rfl⟩ := Prod.mk.inj hpair
        refine ⟨_, hd, ?_, rfl, ?_⟩
        · simp [KnownType.isSettled, KnownType.newName, hgiven]
        · simp [KnownType.currentName, KnownType.newName, hgiven]
    · cases d with
      | program t => cases hlibrary
      | library n' =>
        obtain rfl := Option.some.inj hlibrary
        obtain ⟨rfl, rfl⟩ := Prod.mk.inj hpair
        exact ⟨_, hd, rfl, rfl, rfl⟩
  · rintro ⟨d, hd, hsettled, rfl, rfl⟩
    cases d with
    | program t =>
      obtain ⟨given, hgiven⟩ :=
        Option.isSome_iff_exists.1 (show t.newName.isSome = true from hsettled)
      refine .inl ⟨t, ⟨_, hd, rfl⟩, given, hgiven, ?_⟩
      simp [KnownType.currentName, KnownType.newName, KnownType.name, hgiven]
    | library n => exact .inr ⟨n, ⟨_, hd, rfl⟩, rfl⟩

/-- Only the old names count for where they are. -/
lemma lookup_of_map_name (h : m'.types.map KnownType.name = m.types.map KnownType.name)
    (name : String) : m'.lookup name = m.lookup name := by
  have hmap : ∀ m : Model, m.lookup name =
      (m.types.map KnownType.name).findIdx? (· = name) := by
    intro m
    rw [Array.findIdx?_map]
    rfl
  rw [hmap, hmap, h]

lemma get_eq_ok_iff {d : KnownType} : m.get id = .ok d ↔ m.types[id]? = some d := by
  rw [get]
  cases m.types[id]? <;> simp

lemma currentName_eq_ok {d : KnownType} (hd : m.types[id]? = some d) :
    m.currentName id = .ok d.currentName := by
  rw [currentName, get, hd]
  rfl

/-- A link depends on a model through what is looked up in it. -/
lemma link_of_lookup (h : ∀ name, m'.lookup name = m.lookup name) {adaptMetadata : Bool}
    (t : ProgramType) : m'.link adaptMetadata t = m.link adaptMetadata t := by
  have hlinkTo : m'.linkTo adaptMetadata t = m.linkTo adaptMetadata t := by
    funext outer
    rw [linkTo, linkTo, h]
  rw [Model.link, Model.link, hlinkTo]

/-! ## Growth -/

/-- A later model of a pass: types that were not settled may have been given names. -/
structure Grows (m m' : Model) : Prop where
  modules : m'.modules = m.modules
  types : ∀ id, m'.types[id]? = m.types[id]? ∨
    ∃ t name, m.unnamed? id = some t ∧ m'.types[id]? = some (.program (t.withNewName name))

namespace Grows

lemma refl (m : Model) : m.Grows m :=
  ⟨rfl, fun _ => .inl rfl⟩

lemma settled (h : m.Grows m') {d : KnownType} (hd : m.types[id]? = some d)
    (hsettled : d.isSettled = true) : m'.types[id]? = some d := by
  rcases h.types id with hsame | ⟨t, name, hunnamed, -⟩
  · rw [hsame, hd]
  · have hnone : m.unnamed? id = none :=
      unnamed?_eq_none_iff.2 fun d' hd' => by
        obtain rfl := Option.some.inj (hd.symm.trans hd')
        exact hsettled
    simp [hnone] at hunnamed

/-- A type without a name has not been named before, and is the same as before. -/
lemma unnamed (h : m.Grows m') (ht : m'.unnamed? id = some t) : m.unnamed? id = some t := by
  obtain ⟨htype, hname⟩ := unnamed?_eq_some_iff.1 ht
  rcases h.types id with hsame | ⟨t', name, -, hnamed⟩
  · exact unnamed?_eq_some_iff.2 ⟨hsame ▸ htype, hname⟩
  · rw [hnamed] at htype
    obtain rfl := KnownType.program.inj (Option.some.inj htype)
    simp [ProgramType.withNewName] at hname

lemma trans (h : m.Grows m') (h' : m'.Grows m'') : m.Grows m'' where
  modules := h'.modules.trans h.modules
  types := by
    intro id
    rcases h'.types id with hsame | ⟨t, name, hunnamed, hnamed⟩
    · rw [hsame]
      exact h.types id
    · exact .inr ⟨t, name, h.unnamed hunnamed, hnamed⟩

/-- What does not depend on new names is the same as before. -/
lemma map_eq (h : m.Grows m') {α : Type} {f : KnownType → α}
    (hf : ∀ t name, f (.program (ProgramType.withNewName t name)) = f (.program t)) :
    m'.types.map f = m.types.map f := by
  refine Array.ext_getElem? fun id => ?_
  rw [Array.getElem?_map, Array.getElem?_map]
  rcases h.types id with hsame | ⟨t, name, hunnamed, hnamed⟩
  · rw [hsame]
  · rw [hnamed, (unnamed?_eq_some_iff.1 hunnamed).1, Option.map_some, Option.map_some, hf]

lemma map_name (h : m.Grows m') : m'.types.map KnownType.name = m.types.map KnownType.name :=
  h.map_eq fun _ _ => rfl

lemma size (h : m.Grows m') : m'.size = m.size := by
  have hsize := congrArg Array.size h.map_name
  rwa [Array.size_map, Array.size_map] at hsize

lemma lookup (h : m.Grows m') (name : String) : m'.lookup name = m.lookup name :=
  lookup_of_map_name h.map_name name

/-- Whichever types have been named in the meantime, a type has the link that it had. -/
theorem link (h : m.Grows m') (adaptMetadata : Bool) (t : ProgramType) :
    m'.link adaptMetadata t = m.link adaptMetadata t :=
  link_of_lookup h.lookup t

lemma programIds (h : m.Grows m') : m'.programIds = m.programIds := by
  rw [Model.programIds, Model.programIds, ids, ids, h.size]
  refine List.filter_congr fun id _ => ?_
  rcases h.types id with hsame | ⟨t, name, hunnamed, hnamed⟩
  · rw [hsame]
  · rw [hnamed, (unnamed?_eq_some_iff.1 hunnamed).1]
    rfl

end Grows

/-! ## Naming one type -/

/-- A name can be given to every type of the program, and nothing else changes. -/
theorem assign_of_unnamed (ht : m.unnamed? id = some t) (name : String) :
    m.assign id name = .ok (m.replace id (t.withNewName name)) := by
  have htype := (unnamed?_eq_some_iff.1 ht).1
  simp [assign, get, htype]
  rfl

lemma getElem?_replace_of_isSome {other : TypeId} (h : (m.types[id]?).isSome) (t : ProgramType) :
    (m.replace id t).types[other]? = if id = other then some (.program t) else m.types[other]? := by
  obtain ⟨d, hd⟩ := Option.isSome_iff_exists.1 h
  have hid : id < m.types.size := (Array.getElem?_eq_some_iff.1 hd).1
  simp [replace, Array.getElem?_setIfInBounds, hid]

/-- What a type has in common with the one in its place is the same as before for all types. -/
lemma map_replace {α : Type} {f : KnownType → α} {t' : ProgramType}
    (ht : m.types[id]? = some (.program t)) (hf : f (.program t') = f (.program t)) :
    (m.replace id t').types.map f = m.types.map f := by
  refine Array.ext_getElem? fun other => ?_
  rw [Array.getElem?_map, Array.getElem?_map, getElem?_replace_of_isSome (by rw [ht]; rfl)]
  split
  · subst other
    rw [ht, Option.map_some, Option.map_some, hf]
  · rfl

lemma getElem?_replace {other : TypeId} {t' : ProgramType} (ht : m.unnamed? id = some t) :
    (m.replace id t').types[other]? =
      if id = other then some (.program t') else m.types[other]? := by
  refine getElem?_replace_of_isSome ?_ t'
  rw [(unnamed?_eq_some_iff.1 ht).1]
  rfl

lemma Grows.replace (ht : m.unnamed? id = some t) (name : String) :
    m.Grows (m.replace id (t.withNewName name)) where
  modules := rfl
  types := by
    intro other
    rw [getElem?_replace ht]
    split
    · subst other
      exact .inr ⟨t, name, ht, rfl⟩
    · exact .inl rfl

end Model
end Pseudonym
