import Pseudonym.Proofs.Renaming.Outcome

/-!
# Metadata is named list by list

Modules are named in one scope, and so are the type aliases and the properties of every type that
has metadata with declarations.  All of these draw from the one member sequence, from whatever
position it has been left at.  Each list comes out with the first names of that sequence all the
same, in order (`Named.AreNamedInOrder`).  Neither what has been drawn before, nor the names that
the things had, nor any other list has a part in it.

Nothing else in the model changes, and of the registry nothing but the position of the member
sequence.  No scope stays open (`metadata_is_named_in_order`).
-/

namespace Pseudonym

/-! ## Lists -/

/-- How a list of things comes out of being named in a scope of its own. -/
structure Named.AreNamedInOrder (q : Name.Sequence) (before after : List Named) : Prop where
  /-- They are the same things in the same places. -/
  same : after.map name = before.map name
  /-- The new names are the first names of the sequence, one after the other. -/
  inOrder : after.map newName = (q.take before.length 0).1.map some
  /-- No two of them are the same. -/
  distinct : (after.map newName).Nodup

namespace Named

lemma map_name_inOrder (q : Name.Sequence) (items : List Named) :
    (inOrder q items).map name = items.map name := by
  have hlength : (inOrder q items).length = items.length := by
    simp [inOrder, q.length_take]
  refine List.ext_getElem (by simpa using hlength) fun i _ _ => ?_
  simp [inOrder, withNewName]

lemma map_newName_inOrder (q : Name.Sequence) (items : List Named) :
    (inOrder q items).map newName = (q.take items.length 0).1.map some := by
  have hlength : (inOrder q items).length = (q.take items.length 0).1.length := by
    simp [inOrder, q.length_take]
  refine List.ext_getElem (by simpa using hlength) fun i _ _ => ?_
  simp [inOrder, withNewName]

lemma areNamedInOrder (q : Name.Sequence) (items : List Named) :
    AreNamedInOrder q items (inOrder q items) where
  same := map_name_inOrder q items
  inOrder := map_newName_inOrder q items
  distinct := by
    rw [map_newName_inOrder]
    exact (q.nodup_take items.length 0).map (Option.some_injective String)

example : (inOrder (.words (.ofWords ["get", "set"]) (.short false))
    [⟨"size", none⟩, ⟨"first", some "a"⟩, ⟨"last", some "get"⟩]).map currentName =
      ["get", "set", "a"] := by
  decide +kernel

end Named

/-! ## Types -/

/-- What naming metadata makes of a type of the program. -/
inductive ProgramType.MetadataNamed (q : Name.Sequence) (t : ProgramType) : ProgramType → Prop where
  /-- Without declarations it stays as it is. -/
  | unlisted (hnone : t.declarations? = none) : MetadataNamed q t t
  /-- Its type aliases are named in order, and apart from them its properties. -/
  | listed {d d' : Declarations} (hlisted : t.declarations? = some d)
      (typeAliases : Named.AreNamedInOrder q d.typeAliases d'.typeAliases)
      (properties : Named.AreNamedInOrder q d.properties d'.properties) :
      MetadataNamed q t (t.withDeclarations d')

lemma ProgramType.metadataNamed (q : Name.Sequence) (t : ProgramType) :
    t.MetadataNamed q (t.withDeclarationsNamed q) := by
  unfold withDeclarationsNamed changeDeclarations
  split
  · exact .unlisted (by assumption)
  · exact .listed (by assumption) (Named.areNamedInOrder q _) (Named.areNamedInOrder q _)

/-! ## The model -/

/-- What naming metadata makes of a state. -/
structure MetadataNamed (s s' : Renaming) : Prop where
  /-- Only the position of the member sequence moves. -/
  registry : ∃ position, s'.registry = { s.registry with memberPosition := position }
  closed : s'.registry.currentScope = none
  modules : Named.AreNamedInOrder s.registry.memberSequence s.model.modules s'.model.modules
  size : s'.model.size = s.model.size
  library : ∀ {id : TypeId} {n : Named}, s.model.types[id]? = some (.library n) →
    s'.model.types[id]? = some (.library n)
  program : ∀ {id : TypeId} {t : ProgramType}, s.model.types[id]? = some (.program t) →
    ∃ t', s'.model.types[id]? = some (.program t') ∧ t.MetadataNamed s.registry.memberSequence t'

/-- Metadata is named list by list.  Whenever no scope is open, naming the metadata of a model gives
to the modules, and in each type to the type aliases and to the properties, the first names of the
member sequence in order.  It changes nothing else, and no scope is open afterwards. -/
theorem metadata_is_named_in_order (s : Renaming) (hclosed : s.registry.currentScope = none) :
    ∃ s', s.renameMetadata = .ok s' ∧ MetadataNamed s s' := by
  obtain ⟨s', hs', hchanges⟩ := s.renameMetadata_changes hclosed
  obtain ⟨position, hregistry⟩ := hchanges.registry
  have htypes := hchanges.types_eq
  refine ⟨s', hs', ⟨position, ?_⟩, ?_, ?_, ?_, fun hlibrary => ?_, fun {id t} hprogram => ?_⟩
  · rw [hregistry, ← hclosed]
    rfl
  · rw [hregistry]
    rfl
  · rw [hchanges.modules]
    exact Named.areNamedInOrder _ _
  · rw [Model.size, htypes, Array.size_map]
    rfl
  · rw [htypes, Array.getElem?_map, hlibrary]
    rfl
  · refine ⟨t.withDeclarationsNamed s.registry.memberSequence, ?_, t.metadataNamed _⟩
    rw [htypes, Array.getElem?_map, hprogram]
    rfl

/-- A model with two modules and, in two of its types, declarations.  Some of the names have been
changed before. -/
def Model.annotated : Model :=
  let ofQueue : Declarations :=
    ⟨[⟨"Handler", some "b"⟩, ⟨"Task", none⟩], [⟨"size", none⟩, ⟨"head", some "a"⟩]⟩
  let ofTools : Declarations := ⟨[], [⟨"version", none⟩]⟩
  ⟨#[.program ((ProgramType.named "com.Queue").withMetadata (.ofClass ofQueue)),
      .library ⟨"com.Object", none⟩, .program (.named "com.Plain"),
      .program ((ProgramType.named "com.Tools").withMetadata (.fileFacade ofTools))],
    [⟨"app", some "core"⟩, ⟨"core", none⟩]⟩

/-- The member sequence has been followed for a member, and for a name in a scope, before the
metadata of the model is named. -/
theorem metadata_is_named_in_order_annotated :
    let s := (Renaming.start Model.annotated .plain (.short false)).afterAll
      [.member (.ofList ["a", "b"]), .enter .property, .next .property, .leave .property]
    s.registry.currentScope = none ∧ ∃ s', s.renameMetadata = .ok s' ∧ MetadataNamed s s' := by
  intro s
  have hclosed : s.registry.currentScope = none := by decide +kernel
  exact ⟨hclosed, metadata_is_named_in_order s hclosed⟩

end Pseudonym
