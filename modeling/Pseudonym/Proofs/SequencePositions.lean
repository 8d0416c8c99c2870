import Pseudonym.Proofs.Naming.Rewinding
import Pseudonym.Proofs.Renaming.Creations

/-!
# Positions are shortcuts

A pass follows each sequence from where it stopped.  This saves it the candidates that it has tried
before, and makes no other difference: a pass that begins every sequence anew for every single draw
gives the same names and prefixes (`positions_are_shortcuts`).

The pass without positions is spelled out below, request by request.  It is compared with the pass
itself through `rewound`, which sets all positions back.  Each of its requests commutes with
`rewound` as long as the positions are right, which they are at the beginning and after every step.
-/

namespace Pseudonym

namespace Renaming

variable {s s' : Renaming} {stage : Stage}

/-- The state with all sequences at their beginning. -/
def rewound (s : Renaming) : Renaming :=
  { s with registry := s.registry.rewound }

/-! ## A pass that draws anew -/

/-- Asks the registry for the name of a type on the way, drawn anew. -/
def nameForAnew (s : Renaming) (stage : Stage) : Except Misuse (String × Registry) :=
  match stage.link with
  | none => return s.registry.nameTopLevelAnew stage.name
  | some link => do
    let enclosing ← s.model.currentName link.outer
    return if link.numbered then s.registry.nameNumberedAnew enclosing
      else s.registry.nameNestedAnew enclosing

/-- Names a type on the way, when every name is drawn anew. -/
def nameStageAnew (s : Renaming) (stage : Stage) : Except Misuse Renaming := do
  let (name, registry) ← s.nameForAnew stage
  return ⟨registry, ← s.model.assign stage.id name⟩

/-- Makes sure that a type has its new name, when every name is drawn anew. -/
def renameTypeAnew (s : Renaming) (adaptMetadata : Bool) (id : TypeId) :
    Except Misuse Renaming := do
  let _ ← s.model.get id
  match s.model.unnamed? id with
  | none => return s
  | some t => (s.model.chain adaptMetadata id t).foldlM nameStageAnew s

/-- Does what is asked for or refuses it, when every name is drawn anew.  Names of members and
metadata have no part in this. -/
def fulfilAnew (s : Renaming) : Request → Except Misuse Renaming
  | .rename adaptMetadata id => s.renameTypeAnew adaptMetadata id
  | .topLevel oldName => .ok { s with registry := (s.registry.nameTopLevelAnew oldName).2 }
  | .nested enclosing => .ok { s with registry := (s.registry.nameNestedAnew enclosing).2 }
  | .numbered enclosing => .ok { s with registry := (s.registry.nameNumberedAnew enclosing).2 }
  | .namespacePrefix outer => .ok { s with registry := (s.registry.newPrefixAnew outer).2 }
  | request => s.fulfil request

/-- The state after a request, when every name is drawn anew. -/
def afterAnew (s : Renaming) (request : Request) : Renaming :=
  match s.fulfilAnew request with
  | .ok s' => s'
  | .error _ => s

/-- The state after a list of requests, when every name is drawn anew. -/
def afterAllAnew (s : Renaming) (requests : List Request) : Renaming :=
  requests.foldl afterAnew s

/-! ## What is answered -/

/-- The type names that a request gives, and the prefix that it asks for. -/
def answers (s : Renaming) : Request → List String
  | .namespacePrefix outer => [(s.registry.newPrefix outer).1]
  | request => s.given request

/-- All answers to a list of requests, in order. -/
def answersAll (s : Renaming) : List Request → List String
  | [] => []
  | request :: rest => s.answers request ++ (s.after request).answersAll rest

/-- The answers to a request, when every name is drawn anew. -/
def answersAnew (s : Renaming) : Request → List String
  | .rename adaptMetadata id => s.model.namesSince (s.afterAnew (.rename adaptMetadata id)).model
  | .topLevel oldName => [(s.registry.nameTopLevelAnew oldName).1]
  | .nested enclosing => [(s.registry.nameNestedAnew enclosing).1]
  | .numbered enclosing => [(s.registry.nameNumberedAnew enclosing).1]
  | .namespacePrefix outer => [(s.registry.newPrefixAnew outer).1]
  | _ => []

/-- All answers to a list of requests in order, when every name is drawn anew. -/
def answersAllAnew (s : Renaming) : List Request → List String
  | [] => []
  | request :: rest => s.answersAnew request ++ (s.afterAnew request).answersAllAnew rest

/-! ## Naming stages -/

lemma nameForAnew_rewound (h : s.registry.CaughtUp) (stage : Stage) :
    s.rewound.nameForAnew stage = (s.nameFor stage).map (Prod.map id Registry.rewound) := by
  unfold nameForAnew nameFor
  cases stage.link with
  | none => exact congrArg Except.ok (Registry.nameTopLevelAnew_rewound h stage.name)
  | some link =>
    have hmodel : s.rewound.model = s.model := rfl
    simp only [hmodel]
    cases s.model.currentName link.outer with
    | error misuse => rfl
    | ok enclosing =>
      refine congrArg Except.ok ?_
      cases link.numbered with
      | true => exact Registry.nameNumberedAnew_rewound h enclosing
      | false => exact Registry.nameNestedAnew_rewound h enclosing

lemma nameStageAnew_rewound (h : s.registry.CaughtUp) (stage : Stage) :
    s.rewound.nameStageAnew stage = (s.nameStage stage).map rewound := by
  unfold nameStageAnew nameStage
  rw [nameForAnew_rewound h]
  cases s.nameFor stage with
  | error misuse => rfl
  | ok answer =>
    obtain ⟨name, registry⟩ := answer
    have hmodel : s.rewound.model = s.model := rfl
    simp only [Except.map, bind, Except.bind, Prod.map, id, hmodel]
    cases s.model.assign stage.id name with
    | error misuse => rfl
    | ok model => rfl

lemma nameFor_steps {name : String} {registry : Registry}
    (h : s.nameFor stage = .ok (name, registry)) : Registry.Steps s.registry registry := by
  obtain hanswer | ⟨enclosing, hanswer | hanswer⟩ := nameFor_cases h
  · obtain ⟨-, rfl⟩ := Prod.mk.inj hanswer
    exact s.registry.nameTopLevel_steps stage.name
  · obtain ⟨-, rfl⟩ := Prod.mk.inj hanswer
    exact s.registry.nameNumbered_steps enclosing
  · obtain ⟨-, rfl⟩ := Prod.mk.inj hanswer
    exact s.registry.nameNested_steps enclosing

lemma nameStage_steps (h : s.nameStage stage = .ok s') :
    Registry.Steps s.registry s'.registry := by
  obtain ⟨name, hname⟩ := exists_nameFor_of_nameStage h
  exact nameFor_steps hname

lemma nameStagesAnew_rewound (h : s.registry.CaughtUp) (stages : List Stage) :
    stages.foldlM nameStageAnew s.rewound = (stages.foldlM nameStage s).map rewound :=
  foldlM_commutes (P := fun s => s.registry.CaughtUp) (fun stage h => nameStageAnew_rewound h stage)
    (fun h hs' => h.steps (nameStage_steps hs')) h stages

/-! ## Requests -/

lemma renameTypeAnew_rewound (h : s.registry.CaughtUp) (adaptMetadata : Bool) (id : TypeId) :
    s.rewound.renameTypeAnew adaptMetadata id = (s.renameType adaptMetadata id).map rewound := by
  have hmodel : s.rewound.model = s.model := rfl
  simp only [renameTypeAnew, renameType, hmodel]
  cases s.model.get id with
  | error misuse => rfl
  | ok d =>
    cases s.model.unnamed? id with
    | none => rfl
    | some t => exact nameStagesAnew_rewound h _

/-- A registry that answers the same without positions leaves the same state but for these. -/
lemma ok_rewound {anew answer : String × Registry}
    (h : anew = Prod.map id Registry.rewound answer) :
    (.ok ⟨anew.2, s.model⟩ : Except Misuse Renaming) =
      (Except.ok (⟨answer.2, s.model⟩ : Renaming)).map rewound := by
  rw [h]
  rfl

/-- Every request is fulfilled or refused without positions as it is with them. -/
theorem fulfilAnew_rewound (h : s.registry.CaughtUp) (request : Request) :
    s.rewound.fulfilAnew request = (s.fulfil request).map rewound := by
  cases request with
  | rename adaptMetadata id => exact renameTypeAnew_rewound h adaptMetadata id
  | topLevel oldName => exact ok_rewound (Registry.nameTopLevelAnew_rewound h oldName)
  | nested enclosing => exact ok_rewound (Registry.nameNestedAnew_rewound h enclosing)
  | numbered enclosing => exact ok_rewound (Registry.nameNumberedAnew_rewound h enclosing)
  | namespacePrefix outer => exact ok_rewound (Registry.newPrefixAnew_rewound h outer)
  | member used => rfl
  | enter scope =>
    have hopened := s.registry.enterScope_rewound scope
    simp only [fulfilAnew, fulfil, rewound, hopened]
    cases s.registry.enterScope scope with
    | error misuse => rfl
    | ok registry => rfl
  | leave scope =>
    have hclosed := s.registry.leaveScope_rewound scope
    simp only [fulfilAnew, fulfil, rewound, hclosed]
    cases s.registry.leaveScope scope with
    | error misuse => rfl
    | ok registry => rfl
  | next scope =>
    have hnext := s.registry.nextInScope_rewound scope
    simp only [fulfilAnew, fulfil, rewound, hnext]
    cases s.registry.nextInScope scope with
    | error misuse => rfl
    | ok answer => rfl

lemma afterAnew_rewound (h : s.registry.CaughtUp) (request : Request) :
    s.rewound.afterAnew request = (s.after request).rewound := by
  rw [afterAnew, fulfilAnew_rewound h, after]
  cases s.fulfil request with
  | error misuse => rfl
  | ok s' => rfl

lemma answersAnew_rewound (h : s.registry.CaughtUp) (request : Request) :
    s.rewound.answersAnew request = s.answers request := by
  cases request with
  | rename adaptMetadata id =>
    have hafter := afterAnew_rewound h (.rename adaptMetadata id)
    exact congrArg (fun after => s.model.namesSince after.model) hafter
  | topLevel oldName =>
    exact congrArg (fun answer => [answer.1]) (Registry.nameTopLevelAnew_rewound h oldName)
  | nested enclosing =>
    exact congrArg (fun answer => [answer.1]) (Registry.nameNestedAnew_rewound h enclosing)
  | numbered enclosing =>
    exact congrArg (fun answer => [answer.1]) (Registry.nameNumberedAnew_rewound h enclosing)
  | namespacePrefix outer =>
    exact congrArg (fun answer => [answer.1]) (Registry.newPrefixAnew_rewound h outer)
  | member | enter | leave | next => rfl

/-! ## Runs -/

lemma caughtUp_after (h : s.registry.CaughtUp) (request : Request) :
    (s.after request).registry.CaughtUp :=
  h.steps (s.after_extends request).registry

/-- A run without positions leaves the same state, but for the positions. -/
theorem afterAllAnew_rewound (h : s.registry.CaughtUp) (requests : List Request) :
    s.rewound.afterAllAnew requests = (s.afterAll requests).rewound := by
  induction requests generalizing s with
  | nil => rfl
  | cons request rest ih =>
    rw [afterAllAnew, List.foldl_cons, afterAnew_rewound h]
    exact ih (caughtUp_after h request)

/-- A run without positions gives the same answers. -/
theorem answersAllAnew_rewound (h : s.registry.CaughtUp) (requests : List Request) :
    s.rewound.answersAllAnew requests = s.answersAll requests := by
  induction requests generalizing s with
  | nil => rfl
  | cons request rest ih =>
    rw [answersAllAnew, answersAll, answersAnew_rewound h, afterAnew_rewound h,
      ih (caughtUp_after h request)]

/-- At the beginning of a pass no sequence has been followed. -/
lemma rewound_start (m : Model) (o : NamingOptions) (memberSequence : Name.Sequence) :
    (start m o memberSequence).rewound = start m o memberSequence := by
  have hregistry : (Registry.ofModel m o memberSequence).rewound =
      Registry.ofModel m o memberSequence := by
    rw [Registry.ofModel_eq, Registry.recordAll_eq, Registry.reserveAll_eq]
    rfl
  rw [rewound, start, hregistry]

end Renaming

/-- Positions are shortcuts.  A run in which every sequence is begun anew for every draw gives the
same type names and prefixes, and leaves the same state but for the positions.  Each prefix that is
created was then the first below its new parent that was not taken, and each type name that is given
was the first below its prefix that was not reserved. -/
theorem positions_are_shortcuts (m : Model) (o : NamingOptions) (memberSequence : Name.Sequence) :
    let start := Renaming.start m o memberSequence
    (∀ requests,
      start.answersAllAnew requests = start.answersAll requests ∧
      start.afterAllAnew requests = (start.afterAll requests).rewound ∧
      ∀ outer newOuter, (outer, newOuter) ∈ start.createdAll requests →
        ∃ r newParent, Registry.Steps start.registry r ∧ r.Creates outer newParent ∧
          Registry.Steps (r.createPrefix outer newParent).2 (start.afterAll requests).registry ∧
          r.IsFirstFree newParent newOuter) ∧
    ∀ r, Registry.Steps start.registry r →
      (∀ oldName, (r.newPrefix (Name.namespacePrefix oldName)).2.IsFirstName o.typeSequence
        (r.newPrefix (Name.namespacePrefix oldName)).1 (r.nameTopLevel oldName).1) ∧
      (∀ enclosing, r.IsFirstName o.typeSequence (Name.prefixInside enclosing)
        (r.nameNested enclosing).1) ∧
      ∀ enclosing, r.IsFirstName .numerals (Name.prefixInside enclosing)
        (r.nameNumbered enclosing).1 := by
  intro start
  have hcaught : start.registry.CaughtUp := Registry.caughtUp_ofModel m o memberSequence
  have hrewound : start.rewound = start := Renaming.rewound_start m o memberSequence
  refine ⟨fun requests => ⟨?_, ?_, fun outer newOuter hcreated => ?_⟩, fun r hr => ?_⟩
  · have hanswers := Renaming.answersAllAnew_rewound hcaught requests
    rwa [hrewound] at hanswers
  · have hafter := Renaming.afterAllAnew_rewound hcaught requests
    rwa [hrewound] at hafter
  · obtain ⟨hbefore, hafter⟩ := (start.mem_createdAll requests).1 hcreated
    exact (start.afterAll_extends requests).registry.exists_isFirstFree hcaught hbefore hafter
  · have hcaught' : r.CaughtUp := hcaught.steps hr
    have hoptions : r.options = o := by
      rw [hr.extends.options]
      exact Registry.options_ofModel m o memberSequence
    refine ⟨fun oldName => ?_, fun enclosing => ?_, fun enclosing => ?_⟩
    · rw [← hoptions]
      exact Registry.isFirstName_nameTopLevel hcaught' oldName
    · rw [← hoptions]
      exact Registry.isFirstName_ordinaryName hcaught' (Name.prefixInside enclosing)
    · exact Registry.isFirstName_numberedName hcaught' (Name.prefixInside enclosing)

example : (Renaming.start .empty .plain (.short true)).answersAllAnew
    [.topLevel "Widget", .topLevel "Gadget", .numbered "a", .namespacePrefix "org.",
      .namespacePrefix "com.", .topLevel "org.Widget"] = ["a", "b", "a$1", "a.", "b.", "a.a"] := by
  decide +kernel

end Pseudonym
