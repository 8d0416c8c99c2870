import Pseudonym.Proofs.Renaming.Embedding
import Pseudonym.Proofs.Renaming.Outcome

/-!
# What the naming of types does not look at

Of a type, the naming of types looks at the old name, the new name, the records of the types around
it, and the mark of a lambda class if metadata counts.  A change that leaves these alone is
`IsUnseen`.  The records and the mark matter only for the link that they make, and which link that
is depends on the old names in the model.  So it is enough that a change leaves the names and the
links alone, and then the model `Overlooks` it.

When all types of a model are changed in a way that it overlooks, each is named as it was before,
and the outcome is the old one with the same change made to it (`withTypesNamed_changed`).

Nor does the naming of types look at the sequence of member names, which the registry carries along
for the phases that follow.  So this sequence may be changed at the same time.
-/

namespace Pseudonym

/-- Whether a change of types leaves alone all that the naming of types looks at. -/
structure ProgramType.IsUnseen (adaptMetadata : Bool) (change : ProgramType → ProgramType) :
    Prop where
  name : ∀ t, (change t).name = t.name
  newName : ∀ t, (change t).newName = t.newName
  recordedOuters : ∀ t, (change t).recordedOuters = t.recordedOuters
  isLambda : ∀ t, (adaptMetadata && (change t).isLambda) = (adaptMetadata && t.isLambda)
  withNewName : ∀ t name, change (t.withNewName name) = (change t).withNewName name

/-- Whether a change of types leaves alone their names, and the links that they have in a model. -/
structure Model.Overlooks (m : Model) (adaptMetadata : Bool)
    (change : ProgramType → ProgramType) : Prop where
  name : ∀ t, (change t).name = t.name
  newName : ∀ t, (change t).newName = t.newName
  link : ∀ t, m.link adaptMetadata (change t) = m.link adaptMetadata t
  withNewName : ∀ t name, change (t.withNewName name) = (change t).withNewName name

/-! ## Registries -/

namespace Registry

/-- The registry with another sequence of member names. -/
def withMemberSequence (r : Registry) (q : Name.Sequence) : Registry :=
  { r with memberSequence := q }

lemma ordinaryName_withMemberSequence (r : Registry) (q : Name.Sequence) (outer : String) :
    (r.withMemberSequence q).ordinaryName outer =
      Prod.map id (·.withMemberSequence q) (r.ordinaryName outer) := rfl

lemma numberedName_withMemberSequence (r : Registry) (q : Name.Sequence) (outer : String) :
    (r.withMemberSequence q).numberedName outer =
      Prod.map id (·.withMemberSequence q) (r.numberedName outer) := rfl

lemma resolve_withMemberSequence (r : Registry) (q : Name.Sequence) (outers : List String) :
    (r.withMemberSequence q).resolve outers =
      Prod.map id (·.withMemberSequence q) (r.resolve outers) := by
  induction outers with
  | nil => rfl
  | cons outer parents ih =>
    have hknown : (r.withMemberSequence q).newPrefix? outer = r.newPrefix? outer := rfl
    have hoptions : (r.withMemberSequence q).options = r.options := rfl
    rw [resolve, resolve, hknown, hoptions, ih]
    cases r.newPrefix? outer with
    | some newOuter => rfl
    | none =>
      cases r.options.keepsPrefix outer with
      | true => rfl
      | false =>
        cases r.options.repackageTarget? with
        | some target => rfl
        | none =>
          cases r.options.flattenTarget? with
          | some target => rfl
          | none => rfl

lemma newPrefix_withMemberSequence (r : Registry) (q : Name.Sequence) (outer : String) :
    (r.withMemberSequence q).newPrefix outer =
      Prod.map id (·.withMemberSequence q) (r.newPrefix outer) :=
  r.resolve_withMemberSequence q _

lemma nameTopLevel_withMemberSequence (r : Registry) (q : Name.Sequence) (oldName : String) :
    (r.withMemberSequence q).nameTopLevel oldName =
      Prod.map id (·.withMemberSequence q) (r.nameTopLevel oldName) := by
  rw [nameTopLevel, newPrefix_withMemberSequence]
  rfl

/-- The registry of a model knows the same whatever the sequence of member names. -/
lemma ofModel_withMemberSequence (m : Model) (o : NamingOptions) (q q' : Name.Sequence) :
    (ofModel m o q).withMemberSequence q' = ofModel m o q' := by
  have hreserve : ((blank o q).reserveAll m.settledNames).withMemberSequence q' =
      (blank o q').reserveAll m.settledNames :=
    (List.foldl_hom (fun r : Registry => r.withMemberSequence q') fun _ _ => rfl).symm
  rw [ofModel_eq, ofModel_eq, ← hreserve]
  exact (List.foldl_hom (fun r : Registry => r.withMemberSequence q') fun _ _ => rfl).symm

end Registry

/-! ## Models -/

namespace Model

variable {m m' : Model} {adaptMetadata : Bool} {change : ProgramType → ProgramType}
  {modules : List Named} {id : TypeId} {t : ProgramType}

/-- The model with every type of the program changed, and with other modules. -/
def changed (m : Model) (change : ProgramType → ProgramType) (modules : List Named) : Model :=
  ⟨m.types.map (KnownType.mapProgram change), modules⟩

lemma getElem?_changed (m : Model) (id : TypeId) :
    (m.changed change modules).types[id]? =
      m.types[id]?.map (KnownType.mapProgram change) :=
  Array.getElem?_map

@[simp] lemma size_changed (m : Model) : (m.changed change modules).size = m.size :=
  Array.size_map

lemma get_changed (m : Model) (id : TypeId) :
    (m.changed change modules).get id = (m.get id).map (KnownType.mapProgram change) := by
  rw [get, get, getElem?_changed]
  cases m.types[id]? <;> rfl

lemma programIds_changed (m : Model) : (m.changed change modules).programIds = m.programIds :=
  programIds_of_types rfl

/-- What is not looked at is overlooked in every model. -/
lemma overlooks_of_isUnseen (h : ProgramType.IsUnseen adaptMetadata change) (m : Model) :
    m.Overlooks adaptMetadata change where
  name := h.name
  newName := h.newName
  link t := by
    have hlinkTo : m.linkTo adaptMetadata (change t) = m.linkTo adaptMetadata t := by
      funext outer
      rw [linkTo, linkTo, ProgramType.isNumbered, ProgramType.isNumbered, h.name, h.isLambda]
    rw [Model.link, Model.link, h.recordedOuters, hlinkTo]
  withNewName := h.withNewName

/-- Only the old names count for what a model overlooks. -/
lemma Overlooks.of_lookup (h : m.Overlooks adaptMetadata change)
    (hlookup : ∀ name, m'.lookup name = m.lookup name) : m'.Overlooks adaptMetadata change where
  name := h.name
  newName := h.newName
  link t := by rw [link_of_lookup hlookup, link_of_lookup hlookup, h.link]
  withNewName := h.withNewName

section Unseen

variable (h : m.Overlooks adaptMetadata change)
include h

lemma lookup_changed (name : String) : (m.changed change modules).lookup name = m.lookup name := by
  refine lookup_of_map_name ?_ name
  rw [changed, Array.map_map]
  exact congrArg (m.types.map ·) (funext (KnownType.name_mapProgram h.name))

lemma link_changed (t : ProgramType) :
    (m.changed change modules).link adaptMetadata (change t) = m.link adaptMetadata t :=
  (link_of_lookup (lookup_changed h) _).trans (h.link t)

lemma unnamed?_changed (id : TypeId) :
    (m.changed change modules).unnamed? id = (m.unnamed? id).map change := by
  rw [unnamed?, unnamed?, getElem?_changed]
  cases m.types[id]? with
  | none => rfl
  | some d =>
    cases d with
    | program t =>
      simp only [Option.map_some, Option.bind_some, KnownType.mapProgram, h.newName]
      split <;> rfl
    | library n => rfl

/-- The way outwards is the same. -/
lemma outwards_changed (fuel : Nat) (inside : List Stage) (id : TypeId) (t : ProgramType) :
    (m.changed change modules).outwards adaptMetadata fuel inside id (change t) =
      m.outwards adaptMetadata fuel inside id t := by
  induction fuel generalizing inside id t with
  | zero => rw [outwards, outwards, h.name]
  | succ fuel ih =>
    rw [outwards, outwards, link_changed h, h.name]
    cases m.link adaptMetadata t with
    | none => rfl
    | some link =>
      dsimp only
      rw [unnamed?_changed h]
      cases m.unnamed? link.outer with
      | none => rfl
      | some outer =>
        dsimp only [Option.map_some]
        rw [ih]

lemma chain_changed (id : TypeId) (t : ProgramType) :
    (m.changed change modules).chain adaptMetadata id (change t) = m.chain adaptMetadata id t := by
  rw [chain, chain, size_changed, outwards_changed h]

lemma currentName_changed (id : TypeId) :
    (m.changed change modules).currentName id = m.currentName id := by
  have hname : ∀ d : KnownType, (d.mapProgram change).currentName = d.currentName := by
    intro d
    cases d with
    | program t =>
      simp [KnownType.currentName, KnownType.newName, KnownType.name, h.name, h.newName]
    | library n => rfl
  rw [Model.currentName, Model.currentName, get_changed]
  cases m.get id with
  | error misuse => rfl
  | ok d => exact congrArg Except.ok (hname d)

lemma assign_changed (id : TypeId) (name : String) :
    (m.changed change modules).assign id name =
      (m.assign id name).map (·.changed change modules) := by
  rw [assign, assign, get_changed]
  cases m.get id with
  | error misuse => rfl
  | ok d =>
    cases d with
    | program t =>
      have htypes : (m.changed change modules).replace id ((change t).withNewName name) =
          (m.replace id (t.withNewName name)).changed change modules := by
        simp only [changed, replace, Array.map_setIfInBounds, KnownType.mapProgram, h.withNewName]
      exact congrArg Except.ok htypes
    | library n => rfl

lemma settledNames_changed : (m.changed change modules).settledNames = m.settledNames := by
  have htypes : (m.changed change modules).types = m.types.map (KnownType.mapProgram change) := rfl
  rw [settledNames, settledNames, programTypes_of_types htypes, libraryTypes_of_types htypes,
    List.filterMap_map]
  simp only [Function.comp_def, h.name, h.newName]

lemma labels_changed : (m.changed change modules).labels = m.labels := by
  rw [labels, labels, changed, Array.map_map]
  congr 1
  funext d
  cases d with
  | program t => simp [KnownType.label, KnownType.isLibrary, KnownType.name, KnownType.newName,
      h.name, h.newName]
  | library n => rfl

end Unseen

end Model

/-! ## Phases -/

namespace Renaming

variable {s : Renaming} {adaptMetadata : Bool} {change : ProgramType → ProgramType}
  {modules : List Pseudonym.Named} {q : Name.Sequence}

/-- The state with every type of the program changed, other modules and another sequence of member
names. -/
def changed (s : Renaming) (change : ProgramType → ProgramType) (modules : List Pseudonym.Named)
    (q : Name.Sequence) : Renaming :=
  ⟨s.registry.withMemberSequence q, s.model.changed change modules⟩

/-- Naming a stage leaves the old names alone. -/
lemma lookup_nameStage {s' : Renaming} {stage : Stage} (h : s.nameStage stage = .ok s')
    (name : String) : s'.model.lookup name = s.model.lookup name := by
  obtain ⟨answer, -, h⟩ := exists_of_bind_eq_ok h
  obtain ⟨model, hassign, h⟩ := exists_of_bind_eq_ok h
  obtain rfl := Except.ok.inj h
  obtain ⟨d, hd, hassign⟩ := exists_of_bind_eq_ok hassign
  cases d with
  | library n => exact nomatch hassign
  | program t =>
    obtain rfl := Except.ok.inj hassign
    exact Model.lookup_replace (Model.get_eq_ok_iff.1 hd) answer.1 name

/-- What is overlooked stays so in a fold whose steps leave the old names alone. -/
lemma foldlM_changed {α : Type} {step : Renaming → α → Except Misuse Renaming}
    (hchanged : ∀ {s} x, s.model.Overlooks adaptMetadata change →
      step (s.changed change modules q) x = (step s x).map (·.changed change modules q))
    (hlookup : ∀ {s s' x}, step s x = .ok s' → ∀ name, s'.model.lookup name = s.model.lookup name)
    (h : s.model.Overlooks adaptMetadata change) (xs : List α) :
    xs.foldlM step (s.changed change modules q) =
      (xs.foldlM step s).map (·.changed change modules q) :=
  foldlM_commutes hchanged (fun h hstep => h.of_lookup (hlookup hstep)) h xs

lemma nameFor_changed (h : s.model.Overlooks adaptMetadata change) (stage : Stage) :
    (s.changed change modules q).nameFor stage =
      (s.nameFor stage).map (Prod.map id (·.withMemberSequence q)) := by
  unfold nameFor
  cases stage.link with
  | none => exact congrArg Except.ok (s.registry.nameTopLevel_withMemberSequence q stage.name)
  | some link =>
    dsimp only [changed]
    rw [Model.currentName_changed h]
    cases s.model.currentName link.outer with
    | error misuse => rfl
    | ok enclosing =>
      refine congrArg Except.ok ?_
      cases link.numbered with
      | true => exact s.registry.numberedName_withMemberSequence q _
      | false => exact s.registry.ordinaryName_withMemberSequence q _

lemma nameStage_changed (h : s.model.Overlooks adaptMetadata change) (stage : Stage) :
    (s.changed change modules q).nameStage stage =
      (s.nameStage stage).map (·.changed change modules q) := by
  unfold nameStage
  rw [nameFor_changed h]
  cases s.nameFor stage with
  | error misuse => rfl
  | ok answer =>
    have hassign : (s.changed change modules q).model.assign stage.id answer.1 =
        (s.model.assign stage.id answer.1).map (·.changed change modules) :=
      Model.assign_changed h stage.id answer.1
    simp only [Except.map, bind, Except.bind, Prod.map, id, hassign]
    cases s.model.assign stage.id answer.1 with
    | error misuse => rfl
    | ok model => rfl

/-- A type is named as if nothing had been changed. -/
theorem renameType_changed (h : s.model.Overlooks adaptMetadata change) (id : TypeId) :
    (s.changed change modules q).renameType adaptMetadata id =
      (s.renameType adaptMetadata id).map (·.changed change modules q) := by
  have hget : (s.changed change modules q).model.get id =
      (s.model.get id).map (KnownType.mapProgram change) := s.model.get_changed id
  have hunnamed : (s.changed change modules q).model.unnamed? id =
      (s.model.unnamed? id).map change := Model.unnamed?_changed h id
  simp only [renameType, hget, hunnamed]
  cases s.model.get id with
  | error misuse => rfl
  | ok d =>
    cases s.model.unnamed? id with
    | none => rfl
    | some t =>
      have hchain : (s.changed change modules q).model.chain adaptMetadata id (change t) =
          s.model.chain adaptMetadata id t := Model.chain_changed h id t
      simp only [Except.map, bind, Except.bind, Option.map_some, hchain]
      exact foldlM_changed (fun x h => nameStage_changed h x) lookup_nameStage h _

theorem renameTypes_changed (h : s.model.Overlooks adaptMetadata change) :
    (s.changed change modules q).renameTypes adaptMetadata =
      (s.renameTypes adaptMetadata).map (·.changed change modules q) := by
  have hids : (s.changed change modules q).model.programIds = s.model.programIds :=
    s.model.programIds_changed
  rw [renameTypes, renameTypes, hids]
  exact foldlM_changed (fun x h => renameType_changed h x)
    (fun hs => (renameType_extends hs).model.lookup) h _

lemma start_changed {m : Model} (h : m.Overlooks adaptMetadata change) (o : NamingOptions)
    (q q' : Name.Sequence) :
    (start m o q).changed change modules q' = start (m.changed change modules) o q' := by
  have hregistry : (Registry.ofModel m o q).withMemberSequence q' =
      Registry.ofModel (m.changed change modules) o q' := by
    rw [Registry.ofModel_withMemberSequence, Registry.ofModel, Registry.ofModel,
      Model.settledNames_changed h]
  rw [changed, start, start, hregistry]

end Renaming

/-- Naming the types of a changed model comes to the same change of the outcome, if the model
overlooks what is changed.  The words for members may be others, and members may be overloaded or
not. -/
theorem Model.withTypesNamed_changed {m : Model} {p p' : PassOptions}
    {change : ProgramType → ProgramType} (h : m.Overlooks p.adaptMetadata change)
    (hnaming : p'.naming = p.naming) (hadapt : p'.adaptMetadata = p.adaptMetadata)
    (modules : List Named) :
    (m.changed change modules).withTypesNamed p' =
      (m.withTypesNamed p).changed change modules p'.memberSequence := by
  have hthere : (Renaming.start (m.changed change modules) p.naming p'.memberSequence).renameTypes
      p.adaptMetadata = .ok ((m.changed change modules).withTypesNamed p') := by
    rw [← hnaming, ← hadapt]
    exact Model.renameTypes_start _ p'
  rw [← Renaming.start_changed h p.naming p.memberSequence, Renaming.renameTypes_changed h,
    m.renameTypes_start p] at hthere
  exact (Except.ok.inj hthere).symm

end Pseudonym
