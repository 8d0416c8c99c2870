import Pseudonym.Proofs.Renaming.Performing

/-!
# What a pass writes and what it leaves alone

A pass writes new names and nothing else.  It writes one into every slot that is open when it
begins, and into no other: a name that is there stays, library types have no slot, and metadata is
open only if it counts.  No slot is written twice.

The first half compares the two ends of a pass, type by type (`Model.Renamed`).  That nothing is
written twice cannot be seen from the ends.  It is said of the actions of the pass, each of which
writes into one slot at most: the slots of all actions are different, and they are the open ones.
Types are the reason why this needs an argument, since a type can be named long before its turn,
with another one that lies in it.
-/

namespace Pseudonym

/-! ## The two ends of a pass -/

/-- Declarations with new names. -/
structure Declarations.Renamed (d d' : Declarations) : Prop where
  typeAliases : List.Forall₂ Named.Renamed d.typeAliases d'.typeAliases
  properties : List.Forall₂ Named.Renamed d.properties d'.properties

/-- A type with new names: for itself if it had none, for its members that were not settled, and for
its declarations if metadata counts. -/
structure ProgramType.Renamed (p : PassOptions) (t t' : ProgramType) : Prop where
  name : t'.name = t.name
  innerTypes : t'.innerTypes = t.innerTypes
  enclosingMethodType : t'.enclosingMethodType = t.enclosingMethodType
  kept : t.newName.isSome = true → t'.newName = t.newName
  named : t'.newName.isSome = true
  members : List.Forall₂ Member.Renamed t.members t'.members
  declarations : p.adaptMetadata = true → ∀ d, t.declarations? = some d →
    ∃ d', d.Renamed d' ∧ t'.metadata = t.metadata.map (·.withDeclarations d')
  metadata : p.adaptMetadata = false ∨ t.declarations? = none → t'.metadata = t.metadata

/-- A model with new names: the same library types, and types of the program and modules with new
names in the places where they were. -/
structure Model.Renamed (p : PassOptions) (m m' : Model) : Prop where
  size : m'.size = m.size
  library : ∀ (id : TypeId) (n : Named), m.types[id]? = some (.library n) →
    m'.types[id]? = some (.library n)
  program : ∀ (id : TypeId) (t : ProgramType), m.types[id]? = some (.program t) →
    ∃ t', m'.types[id]? = some (.program t') ∧ t.Renamed p t'
  modules : if p.adaptMetadata then List.Forall₂ Named.Renamed m.modules m'.modules
    else m'.modules = m.modules

/-- Whether a slot is there and has to be written: that of a type without a name, of a member that
is not settled, and if metadata counts, of a module, a type alias or a property. -/
def Model.IsOpen (m : Model) (p : PassOptions) : Slot → Prop
  | .type id => (m.unnamed? id).isSome = true
  | .member id index => ∃ t x, m.types[id]? = some (.program t) ∧ t.members[index]? = some x ∧
      x.isSettled = false
  | .module index => p.adaptMetadata = true ∧ index < m.modules.length
  | .typeAlias id index => p.adaptMetadata = true ∧ ∃ t d, m.types[id]? = some (.program t) ∧
      t.declarations? = some d ∧ index < d.typeAliases.length
  | .property id index => p.adaptMetadata = true ∧ ∃ t d, m.types[id]? = some (.program t) ∧
      t.declarations? = some d ∧ index < d.properties.length

/-- The phases of a pass. -/
inductive Phase where
  | types
  | members
  | metadata

/-- The phase in which a slot is written. -/
def Slot.phase : Slot → Phase
  | .type _ => .types
  | .member _ _ => .members
  | .module _ | .typeAlias _ _ | .property _ _ => .metadata

namespace ProgramType

variable {p : PassOptions} {t t' : ProgramType}

/-- A type is renamed by naming it, if it has no name, and finishing it. -/
lemma renamed_finished (p : PassOptions) (hname : t'.newName.isSome = true)
    (ht' : t' = t ∨ t.newName = none ∧ ∃ name, t' = t.withNewName name) :
    t.Renamed p (t'.finished p) := by
  have hsame : t' = { t with newName := t'.newName } := by
    rcases ht' with rfl | ⟨-, name, rfl⟩ <;> rfl
  have hlists : t'.declarations? = t.declarations? := by rw [hsame]; rfl
  have hmetadata : t'.metadata = t.metadata := by rw [hsame]
  have hfinished := metadata_finished p t'
  constructor
  case name => rw [finished_eq, hsame]
  case innerTypes => rw [finished_eq, hsame]
  case enclosingMethodType => rw [finished_eq, hsame]
  case kept =>
    intro hkept
    rcases ht' with rfl | ⟨hnone, -⟩
    · exact newName_finished p t'
    · rw [hnone] at hkept
      exact nomatch hkept
  case named =>
    rw [newName_finished]
    exact hname
  case members =>
    rw [members_finished]
    have hmembers := t'.withMembersNamed_renamed p.memberSequence p.overload
    rw [show t'.members = t.members by rw [hsame]] at hmembers
    exact hmembers
  case declarations =>
    intro hadapt d hd
    rw [if_pos hadapt, withDeclarationsNamed, changeDeclarations, hlists, hd] at hfinished
    refine ⟨d.inOrder p.memberSequence, ⟨Named.inOrder_renamed _ _, Named.inOrder_renamed _ _⟩, ?_⟩
    rw [hfinished, ← hmetadata]
    rfl
  case metadata =>
    rintro (hadapt | hnone)
    · rw [hfinished, if_neg (by simp [hadapt]), hmetadata]
    · rw [withDeclarationsNamed, changeDeclarations, hlists, hnone] at hfinished
      rw [hfinished, hmetadata, ite_self]

end ProgramType

namespace Model

variable {m m' : Model} {p : PassOptions} {s : Renaming}

theorem renamed_rename (h : m.rename p = .ok s) : m.Renamed p s.model := by
  obtain ⟨s', hs', htypes, hmodules, -⟩ := m.rename_finished p
  obtain rfl := Except.ok.inj (h.symm.trans hs')
  have hgrows := (m.withTypesNamed_extends p).model
  have hat : ∀ id : TypeId, s.model.types[id]? =
      (m.withTypesNamed p).model.types[id]?.map (KnownType.mapProgram (·.finished p)) := by
    intro id
    rw [htypes, Array.getElem?_map]
  constructor
  case size =>
    rw [size, htypes, Array.size_map]
    exact hgrows.size
  case library =>
    intro id n hn
    rw [hat, hgrows.settled hn rfl]
    rfl
  case program =>
    intro id t ht
    obtain ⟨name, d, hd, hsettled, -⟩ :=
      m.withTypesNamed_bears p (Array.getElem?_eq_some_iff.1 ht).1
    rcases hgrows.types id with hsame | ⟨t', newName, hunnamed, hnamed⟩
    · have hkept : (m.withTypesNamed p).model.types[id]? = some (.program t) := hsame.trans ht
      obtain rfl := Option.some.inj (hkept.symm.trans hd)
      exact ⟨t.finished p, by rw [hat, hkept]; rfl, t.renamed_finished p hsettled (.inl rfl)⟩
    · obtain ⟨ht', hnone⟩ := unnamed?_eq_some_iff.1 hunnamed
      obtain rfl := KnownType.program.inj (Option.some.inj (ht.symm.trans ht'))
      exact ⟨(t.withNewName newName).finished p, by rw [hat, hnamed]; rfl,
        t.renamed_finished p rfl (.inr ⟨hnone, newName, rfl⟩)⟩
  case modules =>
    rw [hmodules]
    split
    · exact Named.inOrder_renamed _ _
    · rfl

end Model

/-! ## The slots that are written -/

lemma Member.mem_openSlots {id : TypeId} {index : Nat} {members : List Member} {slot : Slot} :
    slot ∈ openSlots id index members ↔ ∃ (i : Nat) (x : Member), members[i]? = some x ∧
      x.isSettled = false ∧ slot = .member id (index + i) := by
  induction members generalizing index with
  | nil => simp [openSlots]
  | cons x rest ih =>
    have hrest : (∃ (i : Nat) (y : Member), (x :: rest)[i]? = some y ∧ y.isSettled = false ∧
        slot = .member id (index + i)) ↔ (x.isSettled = false ∧ slot = .member id index) ∨
          slot ∈ openSlots id (index + 1) rest := by
      rw [ih]
      constructor
      · rintro ⟨i, y, hy, hopen, rfl⟩
        cases i with
        | zero =>
          obtain rfl := Option.some.inj hy
          exact .inl ⟨hopen, rfl⟩
        | succ i => exact .inr ⟨i, y, hy, hopen, by rw [Nat.add_right_comm, Nat.add_assoc]⟩
      · rintro (⟨hopen, rfl⟩ | ⟨i, y, hy, hopen, rfl⟩)
        · exact ⟨0, x, rfl, hopen, rfl⟩
        · exact ⟨i + 1, y, hy, hopen, by rw [Nat.add_right_comm, Nat.add_assoc]⟩
    rw [hrest, openSlots]
    split
    · rename_i hx
      simp [hx]
    · rename_i hx
      simp [hx]

lemma Member.nodup_openSlots (id : TypeId) (index : Nat) (members : List Member) :
    (openSlots id index members).Nodup := by
  induction members generalizing index with
  | nil => exact List.nodup_nil
  | cons x rest ih =>
    rw [openSlots]
    split
    · exact ih _
    · refine List.nodup_cons.2 ⟨fun hmem => ?_, ih _⟩
      obtain ⟨i, y, -, -, heq⟩ := mem_openSlots.1 hmem
      have hindex := (Slot.member.inj heq).2
      omega

namespace Action

@[simp] lemma filterMap_slot?_write (slots : List Slot) :
    (slots.map write).filterMap slot? = slots := by
  rw [List.filterMap_map]
  exact List.filterMap_some

@[simp] lemma filterMap_slot?_inScope (scope : Scope) (slots : List Slot) :
    (inScope scope slots).filterMap slot? = slots := by
  rw [inScope, List.cons_append, List.filterMap_cons_none rfl, List.filterMap_append,
    filterMap_slot?_write]
  exact List.append_nil slots

end Action

namespace ProgramType

variable {id : TypeId} {t : ProgramType} {slot : Slot}

lemma mem_declarationActions : slot ∈ (t.declarationActions id).filterMap Action.slot? ↔
    ∃ d, t.declarations? = some d ∧
      ((∃ index < d.typeAliases.length, slot = .typeAlias id index) ∨
        ∃ index < d.properties.length, slot = .property id index) := by
  rw [declarationActions]
  cases t.declarations? with
  | none => simp
  | some d => simp [List.filterMap_append, eq_comm]

lemma nodup_declarationActions (id : TypeId) (t : ProgramType) :
    ((t.declarationActions id).filterMap Action.slot?).Nodup := by
  rw [declarationActions]
  cases t.declarations? with
  | none => exact List.nodup_nil
  | some d =>
    rw [Option.elim_some, List.filterMap_append, Action.filterMap_slot?_inScope,
      Action.filterMap_slot?_inScope]
    refine List.nodup_append.2 ⟨?_, ?_, ?_⟩
    · exact List.nodup_range.map fun i j heq => (Slot.typeAlias.inj heq).2
    · exact List.nodup_range.map fun i j heq => (Slot.property.inj heq).2
    · intro slot hslot other hother heq
      obtain ⟨i, -, rfl⟩ := List.mem_map.1 hslot
      obtain ⟨j, -, rfl⟩ := List.mem_map.1 hother
      cases heq

end ProgramType

namespace Model

variable {m : Model} {p : PassOptions} {slot : Slot}

/-- The actions of the first phase write the open slots of types. -/
lemma mem_typeActions : slot ∈ (m.typeActions p.adaptMetadata).filterMap Action.slot? ↔
    slot.phase = .types ∧ m.IsOpen p slot := by
  rw [typeActions, Action.filterMap_slot?_write, List.mem_map]
  constructor
  · rintro ⟨id, hid, rfl⟩
    exact ⟨rfl, isSome_of_mem_namingOrder hid⟩
  · rintro ⟨hphase, hopen⟩
    cases slot with
    | type id =>
      obtain ⟨t, ht⟩ := Option.isSome_iff_exists.1 hopen
      have hid : id ∈ m.programIds := mem_programIds.2 ⟨t, (unnamed?_eq_some_iff.1 ht).1⟩
      exact ⟨id, mem_namingOrder p.adaptMetadata hid hopen, rfl⟩
    | member | module | typeAlias | property => exact nomatch hphase

lemma nodup_typeActions (m : Model) (adaptMetadata : Bool) :
    ((m.typeActions adaptMetadata).filterMap Action.slot?).Nodup := by
  rw [typeActions, Action.filterMap_slot?_write]
  exact (m.nodup_namingOrder adaptMetadata _).map fun i j => Slot.type.inj

lemma filterMap_slot?_memberActions (m : Model) : m.memberActions.filterMap Action.slot? =
    m.collect (fun id t => Member.openSlots id 0 t.members) m.programIds := by
  rw [memberActions, filterMap_collect]
  simp only [Action.filterMap_slot?_write]

lemma mem_memberActions (p : PassOptions) : slot ∈ m.memberActions.filterMap Action.slot? ↔
    slot.phase = .members ∧ m.IsOpen p slot := by
  rw [filterMap_slot?_memberActions, mem_collect]
  constructor
  · rintro ⟨id, t, ht, hslot⟩
    obtain ⟨i, x, hx, hopen, rfl⟩ := Member.mem_openSlots.1 hslot
    rw [Nat.zero_add]
    exact ⟨rfl, t, x, ht, hx, hopen⟩
  · rintro ⟨hphase, hopen⟩
    cases slot with
    | member id index =>
      obtain ⟨t, x, ht, hx, hopen⟩ := hopen
      exact ⟨id, t, ht, Member.mem_openSlots.2 ⟨index, x, hx, hopen, by rw [Nat.zero_add]⟩⟩
    | type | module | typeAlias | property => exact nomatch hphase

lemma nodup_memberActions (m : Model) : (m.memberActions.filterMap Action.slot?).Nodup := by
  rw [filterMap_slot?_memberActions]
  refine nodup_collect (fun id t => Member.nodup_openSlots id 0 t.members) ?_
  intro id id' t t' slot hslot hslot'
  obtain ⟨i, x, -, -, rfl⟩ := Member.mem_openSlots.1 hslot
  obtain ⟨i', x', -, -, heq⟩ := Member.mem_openSlots.1 hslot'
  exact (Slot.member.inj heq).1

lemma filterMap_slot?_metadataActions (m : Model) : m.metadataActions.filterMap Action.slot? =
    (List.range m.modules.length).map .module ++ m.collect
      (fun id t => (t.declarationActions id).filterMap Action.slot?) m.programIds := by
  rw [metadataActions, List.filterMap_append, Action.filterMap_slot?_inScope, filterMap_collect]

/-- If metadata counts, the actions of the last phase write the open slots that belong to it. -/
lemma mem_metadataActions (hadapt : p.adaptMetadata = true) :
    slot ∈ m.metadataActions.filterMap Action.slot? ↔
      slot.phase = .metadata ∧ m.IsOpen p slot := by
  rw [filterMap_slot?_metadataActions, List.mem_append, mem_collect, List.mem_map]
  constructor
  · rintro (⟨index, hindex, rfl⟩ | ⟨id, t, ht, hslot⟩)
    · exact ⟨rfl, hadapt, List.mem_range.1 hindex⟩
    · obtain ⟨d, hd, ⟨index, hindex, rfl⟩ | ⟨index, hindex, rfl⟩⟩ :=
        ProgramType.mem_declarationActions.1 hslot
      · exact ⟨rfl, hadapt, t, d, ht, hd, hindex⟩
      · exact ⟨rfl, hadapt, t, d, ht, hd, hindex⟩
  · rintro ⟨hphase, hopen⟩
    cases slot with
    | module index => exact .inl ⟨index, List.mem_range.2 hopen.2, rfl⟩
    | typeAlias id index =>
      obtain ⟨-, t, d, ht, hd, hindex⟩ := hopen
      exact .inr ⟨id, t, ht,
        ProgramType.mem_declarationActions.2 ⟨d, hd, .inl ⟨index, hindex, rfl⟩⟩⟩
    | property id index =>
      obtain ⟨-, t, d, ht, hd, hindex⟩ := hopen
      exact .inr ⟨id, t, ht,
        ProgramType.mem_declarationActions.2 ⟨d, hd, .inr ⟨index, hindex, rfl⟩⟩⟩
    | type | member => exact nomatch hphase

lemma nodup_metadataActions (m : Model) : (m.metadataActions.filterMap Action.slot?).Nodup := by
  rw [filterMap_slot?_metadataActions]
  refine List.nodup_append.2 ⟨?_, ?_, ?_⟩
  · exact List.nodup_range.map fun i j heq => Slot.module.inj heq
  · refine nodup_collect ProgramType.nodup_declarationActions ?_
    intro id id' t t' slot hslot hslot'
    obtain ⟨d, -, ⟨i, -, rfl⟩ | ⟨i, -, rfl⟩⟩ := ProgramType.mem_declarationActions.1 hslot <;>
      obtain ⟨d', -, ⟨j, -, heq⟩ | ⟨j, -, heq⟩⟩ := ProgramType.mem_declarationActions.1 hslot'
    · exact (Slot.typeAlias.inj heq).1
    · exact nomatch heq
    · exact nomatch heq
    · exact (Slot.property.inj heq).1
  · intro slot hslot other hother heq
    obtain ⟨i, -, rfl⟩ := List.mem_map.1 hslot
    obtain ⟨id, t, -, hother⟩ := mem_collect.1 hother
    obtain ⟨d, -, ⟨j, -, rfl⟩ | ⟨j, -, rfl⟩⟩ := ProgramType.mem_declarationActions.1 hother
    · exact nomatch heq
    · exact nomatch heq

/-- Slots that are written in different phases are different. -/
lemma nodup_append_of_phase {early late : List Slot} (hearly : early.Nodup) (hlate : late.Nodup)
    (hphase : ∀ slot ∈ early, ∀ slot' ∈ late, slot.phase ≠ slot'.phase) :
    (early ++ late).Nodup := by
  refine List.nodup_append.2 ⟨hearly, hlate, ?_⟩
  rintro slot hslot _ hslot' rfl
  exact hphase slot hslot slot hslot' rfl

/-- Types and members together. -/
lemma mem_earlyActions : slot ∈ (m.typeActions p.adaptMetadata ++ m.memberActions).filterMap
    Action.slot? ↔ (slot.phase = .types ∨ slot.phase = .members) ∧ m.IsOpen p slot := by
  rw [List.filterMap_append, List.mem_append, mem_typeActions, mem_memberActions p, or_and_right]

/-- The actions of a pass write the slots that are open. -/
theorem mem_actions : slot ∈ (m.actions p).filterMap Action.slot? ↔ m.IsOpen p slot := by
  rw [actions]
  by_cases hadapt : p.adaptMetadata = true
  · rw [if_pos hadapt, List.filterMap_append, List.mem_append, mem_earlyActions,
      mem_metadataActions hadapt, ← or_and_right]
    cases slot <;> simp [Slot.phase]
  · rw [if_neg hadapt, List.append_nil, mem_earlyActions]
    cases slot <;> simp [Slot.phase, IsOpen, hadapt]

/-- No slot is written twice. -/
theorem nodup_actions (m : Model) (p : PassOptions) :
    ((m.actions p).filterMap Action.slot?).Nodup := by
  have hearly : ((m.typeActions p.adaptMetadata ++ m.memberActions).filterMap
      Action.slot?).Nodup := by
    rw [List.filterMap_append]
    refine nodup_append_of_phase (m.nodup_typeActions _) m.nodup_memberActions ?_
    intro slot hslot slot' hslot'
    rw [(mem_typeActions.1 hslot).1, ((mem_memberActions p).1 hslot').1]
    exact Phase.noConfusion
  rw [actions]
  by_cases hadapt : p.adaptMetadata = true
  · rw [if_pos hadapt, List.filterMap_append]
    refine nodup_append_of_phase hearly m.nodup_metadataActions fun slot hslot slot' hslot' => ?_
    rw [((mem_metadataActions hadapt).1 hslot').1]
    rcases (mem_earlyActions.1 hslot).1 with hphase | hphase
    · rw [hphase]
      exact Phase.noConfusion
    · rw [hphase]
      exact Phase.noConfusion
  · rw [if_neg hadapt, List.append_nil]
    exact hearly

end Model

/-- What a pass writes and what it leaves alone.  It is never refused.  At its end there are the
types, members, modules and declarations that were there, library types and names given beforehand
are as they were, and everything that was to be named has a name.  The pass is a series of actions,
one phase after the other.  No two of them write into the same slot, and those that are written are
the open ones. -/
theorem open_slots_are_written_once (m : Model) (p : PassOptions) :
    ∃ s, m.rename p = .ok s ∧ m.Renamed p s.model ∧
      (m.actions p).foldlM (Renaming.perform p) (Renaming.start m p.naming p.memberSequence) =
        .ok s ∧
      ((m.actions p).filterMap Action.slot?).Nodup ∧
      ∀ slot, slot ∈ (m.actions p).filterMap Action.slot? ↔ m.IsOpen p slot := by
  obtain ⟨s, hs, hperforms⟩ := m.rename_performs p
  exact ⟨s, hs, Model.renamed_rename hs, hperforms, m.nodup_actions p, fun _ => Model.mem_actions⟩

end Pseudonym
