import Pseudonym.Proofs.Renaming.NamingOrder
import Pseudonym.Proofs.Renaming.Outcome

/-!
# A pass as a list of actions

The places of a model where a new name can stand are its slots.  An action draws a name and writes
it into a slot, or opens or closes a scope.  What the name is drawn from depends on the slot: that
of a type is asked for with the link of the type, that of a member with the names in use around it,
and the others come one after the other from a scope (`Renaming.draw`).

The actions of a pass are known before it begins (`Model.actions`).  First come those of the types,
in the order in which they are named, then those of the members that are not settled, type by type.
If metadata counts, they are followed by those of the modules and of the declarations of every type,
each list in a scope of its own.
-/

namespace Pseudonym

/-! ## Slots -/

/-- A place in a model where a new name can stand: that of a type, of a member of a type, of a
module, or of a type alias or a property in the metadata of a type. -/
inductive Slot where
  | type (id : TypeId)
  | member (id : TypeId) (index : Nat)
  | module (index : Nat)
  | typeAlias (id : TypeId) (index : Nat)
  | property (id : TypeId) (index : Nat)
  deriving DecidableEq, Repr

namespace ProgramType

/-- The type with a new name for one of its members. -/
def nameMemberAt (t : ProgramType) (index : Nat) (name : String) : ProgramType :=
  { t with members := t.members.modify index fun x => { x with newName := some name } }

end ProgramType

namespace Model

/-- The type of the program with a number. -/
def getProgram (m : Model) (id : TypeId) : Except Misuse ProgramType := do
  match ← m.get id with
  | .program t => return t
  | .library t => throw (.fixedName t.name)

/-- Changes one type of the program. -/
def change (m : Model) (id : TypeId) (f : ProgramType → ProgramType) : Except Misuse Model := do
  return m.replace id (f (← m.getProgram id))

/-- Writes a new name into a slot. -/
def write (m : Model) (name : String) : Slot → Except Misuse Model
  | .type id => m.assign id name
  | .member id index => m.change id (·.nameMemberAt index name)
  | .module index =>
    return { m with modules := m.modules.modify index (·.withNewName name) }
  | .typeAlias id index => m.change id (·.changeDeclarations fun d =>
      { d with typeAliases := d.typeAliases.modify index (·.withNewName name) })
  | .property id index => m.change id (·.changeDeclarations fun d =>
      { d with properties := d.properties.modify index (·.withNewName name) })

end Model

/-! ## Actions -/

/-- One action of a pass. -/
inductive Action where
  | write (slot : Slot)
  | enter (scope : Scope)
  | leave (scope : Scope)
  deriving DecidableEq, Repr

/-- The slot that an action writes into. -/
def Action.slot? : Action → Option Slot
  | .write slot => some slot
  | .enter _ => none
  | .leave _ => none

/-- The actions that write into slots in a scope of their own. -/
def Action.inScope (scope : Scope) (slots : List Slot) : List Action :=
  .enter scope :: slots.map .write ++ [.leave scope]

/-- How a type is to be named when its turn comes.  Its link counts if the type that it goes to has
its name by then. -/
def Model.stageOf (m : Model) (adaptMetadata : Bool) (id : TypeId) (t : ProgramType) : Stage :=
  ⟨id, t.name, (m.link adaptMetadata t).filter fun link => (m.unnamed? link.outer).isNone⟩

/-- The names that are in use around a member, by its index. -/
def ProgramType.namesAround (overload : Bool) (t : ProgramType) (index : Nat) :
    Std.ExtTreeSet String :=
  t.members[index]?.elim ∅ fun x => x.namesAround overload (t.members.filter (·.isSettled))

namespace Renaming

variable (p : PassOptions)

/-- Draws the name for a slot. -/
def draw (s : Renaming) : Slot → Except Misuse (String × Registry)
  | .type id => do s.nameFor (s.model.stageOf p.adaptMetadata id (← s.model.getProgram id))
  | .member id index => do
    return s.registry.nameMember ((← s.model.getProgram id).namesAround p.overload index)
  | .module _ => s.registry.nextInScope .module
  | .typeAlias _ _ => s.registry.nextInScope .typeAlias
  | .property _ _ => s.registry.nextInScope .property

/-- Performs an action. -/
def perform (s : Renaming) : Action → Except Misuse Renaming
  | .write slot => do
    let (name, registry) ← s.draw p slot
    return ⟨registry, ← s.model.write name slot⟩
  | .enter scope => do return { s with registry := ← s.registry.enterScope scope }
  | .leave scope => do return { s with registry := ← s.registry.leaveScope scope }

/-- Whether actions lead from a state to another. -/
def Performs (s : Renaming) (actions : List Action) (s' : Renaming) : Prop :=
  actions.foldlM (perform p) s = .ok s'

namespace Performs

variable {p} {s s' s'' : Renaming} {actions actions' : List Action}

lemma refl (s : Renaming) : s.Performs p [] s := rfl

lemma append (h : s.Performs p actions s') (h' : s'.Performs p actions' s'') :
    s.Performs p (actions ++ actions') s'' := by
  rw [Performs, List.foldlM_append, h]
  exact h'

lemma single {action : Action} (h : s.perform p action = .ok s') : s.Performs p [action] s' := by
  rw [Performs, List.foldlM_cons, h]
  rfl

/-- A name is drawn for a slot and written into it. -/
lemma write {slot : Slot} {name : String} {registry : Registry} {model : Model}
    (hdraw : s.draw p slot = .ok (name, registry)) (hwrite : s.model.write name slot = .ok model) :
    s.Performs p [.write slot] ⟨registry, model⟩ := by
  refine single ?_
  simp only [perform, bind, Except.bind, hdraw, hwrite]
  rfl

end Performs
end Renaming

/-! ## The actions of a pass -/

/-- The slots of those among some members that are not settled, numbered from an index on. -/
def Member.openSlots (id : TypeId) : (index : Nat) → List Member → List Slot
  | _, [] => []
  | index, x :: rest =>
    if x.isSettled then openSlots id (index + 1) rest
    else .member id index :: openSlots id (index + 1) rest

/-- The actions that name the declarations of a type. -/
def ProgramType.declarationActions (id : TypeId) (t : ProgramType) : List Action :=
  t.declarations?.elim [] fun d =>
    Action.inScope .typeAlias ((List.range d.typeAliases.length).map (.typeAlias id)) ++
      Action.inScope .property ((List.range d.properties.length).map (.property id))

namespace Model

/-- What the types of the program among some numbers contribute to a list. -/
def collect {α : Type} (m : Model) (part : TypeId → ProgramType → List α) (ids : List TypeId) :
    List α :=
  ids.flatMap fun id => (m.types[id]?.bind KnownType.program?).elim [] (part id)

/-- The actions that name the types. -/
def typeActions (m : Model) (adaptMetadata : Bool) : List Action :=
  ((m.namingOrder adaptMetadata m.programIds).map .type).map .write

/-- The actions that name the members. -/
def memberActions (m : Model) : List Action :=
  m.collect (fun id t => (Member.openSlots id 0 t.members).map .write) m.programIds

/-- The actions that name the metadata. -/
def metadataActions (m : Model) : List Action :=
  Action.inScope .module ((List.range m.modules.length).map .module) ++
    m.collect (fun id t => t.declarationActions id) m.programIds

/-- The actions of a pass. -/
def actions (m : Model) (p : PassOptions) : List Action :=
  m.typeActions p.adaptMetadata ++ m.memberActions ++
    if p.adaptMetadata then m.metadataActions else []

/-! ## What types contribute -/

variable {m m' : Model} {α β : Type} {part : TypeId → ProgramType → List α}

lemma mem_collect {x : α} : x ∈ m.collect part m.programIds ↔
    ∃ id t, m.types[id]? = some (.program t) ∧ x ∈ part id t := by
  rw [collect, List.mem_flatMap]
  constructor
  · rintro ⟨id, hid, hx⟩
    obtain ⟨t, ht⟩ := mem_programIds.1 hid
    rw [ht] at hx
    exact ⟨id, t, ht, hx⟩
  · rintro ⟨id, t, ht, hx⟩
    refine ⟨id, mem_programIds.2 ⟨t, ht⟩, ?_⟩
    rw [ht]
    exact hx

/-- What different types contribute is different. -/
lemma nodup_collect (hnodup : ∀ id t, (part id t).Nodup)
    (hdisjoint : ∀ id id' t t' x, x ∈ part id t → x ∈ part id' t' → id = id') :
    (m.collect part m.programIds).Nodup := by
  have hmem : ∀ (id : TypeId) (x : α),
      x ∈ (m.types[id]?.bind KnownType.program?).elim [] (part id) → ∃ t, x ∈ part id t := by
    intro id x hx
    cases ht : m.types[id]?.bind KnownType.program? with
    | none => simp [ht] at hx
    | some t => exact ⟨t, by simpa [ht] using hx⟩
  refine List.nodup_flatMap.2 ⟨fun id _ => ?_, ?_⟩
  · cases m.types[id]?.bind KnownType.program? with
    | none => exact List.nodup_nil
    | some t => exact hnodup id t
  · refine m.nodup_programIds.imp fun {id id'} hne x hx hx' => ?_
    obtain ⟨t, ht⟩ := hmem id x hx
    obtain ⟨t', ht'⟩ := hmem id' x hx'
    exact hne (hdisjoint id id' t t' x ht ht')

lemma filterMap_collect (f : α → Option β) (ids : List TypeId) :
    (m.collect part ids).filterMap f = m.collect (fun id t => (part id t).filterMap f) ids := by
  rw [collect, List.filterMap_flatMap]
  refine List.flatMap_congr fun id _ => ?_
  cases m.types[id]?.bind KnownType.program? with
  | none => rfl
  | some t => rfl

/-- What types contribute is the same when they have been named, unless their names matter. -/
lemma Grows.collect (h : m.Grows m')
    (hpart : ∀ id t name, part id (ProgramType.withNewName t name) = part id t)
    (ids : List TypeId) : m'.collect part ids = m.collect part ids := by
  refine List.flatMap_congr fun id _ => ?_
  rcases h.types id with hsame | ⟨t, name, hunnamed, hnamed⟩
  · rw [hsame]
  · rw [hnamed, (unnamed?_eq_some_iff.1 hunnamed).1]
    exact hpart id t name

/-- Nor does a change of every type matter that leaves alone what they contribute. -/
lemma collect_of_types {change : ProgramType → ProgramType}
    (h : m'.types = m.types.map (KnownType.mapProgram change))
    (hpart : ∀ id t, part id (change t) = part id t) (ids : List TypeId) :
    m'.collect part ids = m.collect part ids := by
  refine List.flatMap_congr fun id _ => ?_
  rw [h, Array.getElem?_map]
  cases m.types[id]? with
  | none => rfl
  | some d =>
    cases d with
    | program t => exact hpart id t
    | library n => rfl

lemma Grows.memberActions (h : m.Grows m') : m'.memberActions = m.memberActions := by
  rw [Model.memberActions, h.programIds]
  exact h.collect (fun _ _ _ => rfl) _

lemma Grows.metadataActions (h : m.Grows m') : m'.metadataActions = m.metadataActions := by
  rw [Model.metadataActions, h.modules, h.programIds, h.collect fun _ _ _ => rfl]
  rfl

/-- The names of members do not matter for metadata. -/
lemma metadataActions_of_types {q : Name.Sequence} {overload : Bool}
    (h : m'.types = m.types.map (KnownType.mapProgram (·.withMembersNamed q overload)))
    (hmodules : m'.modules = m.modules) : m'.metadataActions = m.metadataActions := by
  rw [metadataActions, hmodules, programIds_of_types h, collect_of_types h fun _ _ => rfl]
  rfl

end Model
end Pseudonym
