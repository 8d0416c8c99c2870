import Pseudonym.Naming.Scopes
import Pseudonym.Proofs.Renaming.Types

/-!
# A pass as a series of requests

A pass in progress can be asked for names one by one, in any order and as often as one likes.  A
`Request` is what can be asked, `after` is the state that it leaves behind, and `given` are the
names of types that it gives.  A request that makes no sense is refused and changes nothing.

Every request leaves a later state (`after_extends`), and so does every list of requests.
-/

namespace Pseudonym

/-- What a pass in progress can be asked for. -/
inductive Request where
  /-- Making sure that a type of the model has its new name. -/
  | rename (adaptMetadata : Bool) (id : TypeId)
  /-- A name for a type that lies in no other. -/
  | topLevel (oldName : String)
  /-- A name for a type inside a type. -/
  | nested (enclosing : String)
  /-- A numbered name for a type inside a type. -/
  | numbered (enclosing : String)
  /-- The new prefix of a namespace prefix. -/
  | namespacePrefix (outer : String)
  /-- A name for a member that is not in use. -/
  | member (used : Std.ExtTreeSet String)
  /-- Opening a scope for metadata, closing it, and the next name in it. -/
  | enter (scope : Scope)
  | leave (scope : Scope)
  | next (scope : Scope)

/-- The new name of a type that had none in an earlier model. -/
def Model.nameSince? (before after : Model) (id : TypeId) : Option String :=
  if (before.unnamed? id).isSome then after.types[id]?.bind KnownType.newName else none

/-- The new names of all types that had none in an earlier model. -/
def Model.namesSince (before after : Model) : List String :=
  after.ids.filterMap (before.nameSince? after)

namespace Renaming

variable {s s' : Renaming} {name : String}

/-- The state at the beginning of a pass over a model. -/
def start (m : Model) (o : NamingOptions) (memberSequence : Name.Sequence) : Renaming :=
  ⟨.ofModel m o memberSequence, m⟩

/-- Does what is asked for, or refuses it. -/
def fulfil (s : Renaming) : Request → Except Misuse Renaming
  | .rename adaptMetadata id => s.renameType adaptMetadata id
  | .topLevel oldName => .ok { s with registry := (s.registry.nameTopLevel oldName).2 }
  | .nested enclosing => .ok { s with registry := (s.registry.nameNested enclosing).2 }
  | .numbered enclosing => .ok { s with registry := (s.registry.nameNumbered enclosing).2 }
  | .namespacePrefix outer => .ok { s with registry := (s.registry.newPrefix outer).2 }
  | .member used => .ok { s with registry := (s.registry.nameMember used).2 }
  | .enter scope => do return { s with registry := ← s.registry.enterScope scope }
  | .leave scope => do return { s with registry := ← s.registry.leaveScope scope }
  | .next scope => do return { s with registry := (← s.registry.nextInScope scope).2 }

/-- The state after a request. -/
def after (s : Renaming) (request : Request) : Renaming :=
  match s.fulfil request with
  | .ok s' => s'
  | .error _ => s

/-- The names of types that a request gives. -/
def given (s : Renaming) : Request → List String
  | .rename adaptMetadata id => s.model.namesSince (s.after (.rename adaptMetadata id)).model
  | .topLevel oldName => [(s.registry.nameTopLevel oldName).1]
  | .nested enclosing => [(s.registry.nameNested enclosing).1]
  | .numbered enclosing => [(s.registry.nameNumbered enclosing).1]
  | _ => []

/-- The state after a list of requests. -/
def afterAll (s : Renaming) (requests : List Request) : Renaming :=
  requests.foldl after s

/-- The names of types that a list of requests gives, in order. -/
def givenAll (s : Renaming) : List Request → List String
  | [] => []
  | request :: rest => s.given request ++ (s.after request).givenAll rest

lemma afterAll_cons (s : Renaming) (request : Request) (rest : List Request) :
    s.afterAll (request :: rest) = (s.after request).afterAll rest := rfl

lemma afterAll_append (s : Renaming) (first second : List Request) :
    s.afterAll (first ++ second) = (s.afterAll first).afterAll second :=
  List.foldl_append

/-! ## Later states -/

lemma after_of_ok {request : Request} (h : s.fulfil request = .ok s') : s.after request = s' := by
  rw [after, h]

lemma exists_of_bind_eq_ok {α β : Type} {x : Except Misuse α} {f : α → Except Misuse β} {b : β}
    (h : x >>= f = .ok b) : ∃ a, x = .ok a ∧ f a = .ok b := by
  cases x with
  | error misuse => exact nomatch h
  | ok a => exact ⟨a, rfl, h⟩

/-- The name of a stage comes from one of three requests to the registry. -/
lemma nameFor_cases {stage : Stage} {answer : String × Registry}
    (h : s.nameFor stage = .ok answer) :
    answer = s.registry.nameTopLevel stage.name ∨
      ∃ enclosing, answer = s.registry.nameNumbered enclosing ∨
        answer = s.registry.nameNested enclosing := by
  unfold nameFor at h
  split at h
  · exact .inl (Except.ok.inj h).symm
  · obtain ⟨enclosing, -, h⟩ := exists_of_bind_eq_ok h
    have hanswer := (Except.ok.inj h).symm
    split at hanswer
    · exact .inr ⟨enclosing, .inl hanswer⟩
    · exact .inr ⟨enclosing, .inr hanswer⟩

/-- A stage that is named leaves the registry that its name came from. -/
lemma exists_nameFor_of_nameStage {stage : Stage} (h : s.nameStage stage = .ok s') :
    ∃ name, s.nameFor stage = .ok (name, s'.registry) := by
  obtain ⟨⟨name, registry⟩, hname, h⟩ := exists_of_bind_eq_ok h
  obtain ⟨m, -, h⟩ := exists_of_bind_eq_ok h
  obtain rfl := Except.ok.inj h
  exact ⟨name, hname⟩

/-- What relates the two ends of every step relates the two ends of a fold. -/
lemma foldlM_relates {α : Type} {step : Renaming → α → Except Misuse Renaming}
    {R : Renaming → Renaming → Prop} (refl : ∀ s, R s s)
    (trans : ∀ {s₁ s₂ s₃}, R s₁ s₂ → R s₂ s₃ → R s₁ s₃)
    (hstep : ∀ {s s' x}, step s x = .ok s' → R s s') {xs : List α}
    (h : xs.foldlM step s = .ok s') : R s s' := by
  induction xs generalizing s with
  | nil =>
    obtain rfl := Except.ok.inj h
    exact refl s
  | cons x rest ih =>
    rw [List.foldlM_cons] at h
    obtain ⟨s₁, hs₁, h⟩ := exists_of_bind_eq_ok h
    exact trans (hstep hs₁) (ih h)

/-- If the steps of two folds commute with a function on states, then so do the folds.  For the
steps it is enough to consider states with a property that every step preserves. -/
lemma foldlM_commutes {α : Type} {step step' : Renaming → α → Except Misuse Renaming}
    {f : Renaming → Renaming} {P : Renaming → Prop}
    (hcommutes : ∀ {s} x, P s → step' (f s) x = (step s x).map f)
    (hpreserves : ∀ {s s' x}, P s → step s x = .ok s' → P s') (hs : P s) (xs : List α) :
    xs.foldlM step' (f s) = (xs.foldlM step s).map f := by
  induction xs generalizing s with
  | nil => rfl
  | cons x rest ih =>
    rw [List.foldlM_cons, List.foldlM_cons, hcommutes x hs]
    cases hs' : step s x with
    | error misuse => rfl
    | ok s' => exact ih (hpreserves hs hs')

lemma renameType_extends {adaptMetadata : Bool} {id : TypeId}
    (h : s.renameType adaptMetadata id = .ok s') : s.Extends s' := by
  rcases Nat.lt_or_ge id s.model.size with hid | hid
  · obtain ⟨s₁, stages, hs₁, hnames, -⟩ := s.renameType_names adaptMetadata hid
    obtain rfl := Except.ok.inj (hs₁.symm.trans h)
    exact hnames.grows
  · rw [s.renameType_of_size_le adaptMetadata hid] at h
    exact nomatch h

lemma foldlM_extends {adaptMetadata : Bool} {ids : List TypeId}
    (h : ids.foldlM (renameType · adaptMetadata) s = .ok s') : s.Extends s' :=
  foldlM_relates .refl .trans renameType_extends h

/-- What is not refused leads to a later state. -/
theorem fulfil_extends {request : Request} (h : s.fulfil request = .ok s') : s.Extends s' := by
  cases request with
  | rename adaptMetadata id => exact renameType_extends h
  | topLevel oldName =>
    obtain rfl := Except.ok.inj h
    exact .of_steps (s.registry.nameTopLevel_steps oldName)
  | nested enclosing =>
    obtain rfl := Except.ok.inj h
    exact .of_steps (s.registry.nameNested_steps enclosing)
  | numbered enclosing =>
    obtain rfl := Except.ok.inj h
    exact .of_steps (s.registry.nameNumbered_steps enclosing)
  | namespacePrefix outer =>
    obtain rfl := Except.ok.inj h
    exact .of_steps (s.registry.newPrefix_steps outer)
  | member used =>
    obtain rfl := Except.ok.inj h
    exact .of_steps (s.registry.nameMember_steps used)
  | enter scope =>
    obtain ⟨registry, henter, h⟩ := exists_of_bind_eq_ok h
    obtain rfl := Except.ok.inj h
    exact .of_steps (Registry.enterScope_steps henter)
  | leave scope =>
    obtain ⟨registry, hleave, h⟩ := exists_of_bind_eq_ok h
    obtain rfl := Except.ok.inj h
    exact .of_steps (Registry.leaveScope_steps hleave)
  | next scope =>
    obtain ⟨drawn, hnext, h⟩ := exists_of_bind_eq_ok h
    obtain rfl := Except.ok.inj h
    exact .of_steps (Registry.nextInScope_steps hnext)

/-- Every request leaves a later state. -/
theorem after_extends (s : Renaming) (request : Request) : s.Extends (s.after request) := by
  unfold after
  split
  · exact fulfil_extends (by assumption)
  · exact .refl s

theorem afterAll_extends (s : Renaming) (requests : List Request) :
    s.Extends (s.afterAll requests) := by
  induction requests generalizing s with
  | nil => exact .refl s
  | cons request rest ih => exact (s.after_extends request).trans (ih _)

/-- What is answered for a namespace is answered for it at the end of the run, too. -/
lemma newPrefix_afterAll (s : Renaming) (before after : List Request) (outer : String) :
    let last := (s.afterAll (before ++ .namespacePrefix outer :: after)).registry
    last.newPrefix outer = (((s.afterAll before).registry.newPrefix outer).1, last) := by
  intro last
  have hextends : ((s.afterAll before).registry.newPrefix outer).2.Extends last := by
    have hlater := ((s.afterAll before).after (.namespacePrefix outer)).afterAll_extends after
    rw [← afterAll_cons, ← afterAll_append] at hlater
    exact hlater.registry.extends
  exact Registry.newPrefix_of_extends hextends

/-! ## Renaming -/

/-- A type that is to be renamed has a name afterwards. -/
lemma after_rename_bears (adaptMetadata : Bool) {id : TypeId} (hid : id < s.model.size) :
    ∃ name, (s.after (.rename adaptMetadata id)).model.Bears id name := by
  obtain ⟨s', stages, hs', hnames, ⟨rfl, hsettled⟩ | ⟨-, hmem⟩⟩ :=
    s.renameType_names adaptMetadata hid
  · have hafter : s.after (.rename adaptMetadata id) = s' := after_of_ok hs'
    obtain ⟨name, hbears⟩ := Model.exists_bears (Array.getElem?_eq_getElem hid) hsettled
    exact ⟨name, hafter ▸ hbears.mono hnames.grows.model⟩
  · have hafter : s.after (.rename adaptMetadata id) = s' := after_of_ok hs'
    obtain ⟨stage, hstage, rfl⟩ := List.mem_map.1 hmem
    obtain ⟨name, hbears, -⟩ := hnames.named stage hstage
    exact ⟨name, hafter ▸ hbears⟩

theorem afterAll_bears {requests : List Request} {adaptMetadata : Bool} {id : TypeId}
    (h : .rename adaptMetadata id ∈ requests) (hid : id < s.model.size) :
    ∃ name, (s.afterAll requests).model.Bears id name := by
  induction requests generalizing s with
  | nil => exact absurd h List.not_mem_nil
  | cons request rest ih =>
    rcases List.mem_cons.1 h with rfl | h
    · obtain ⟨name, hbears⟩ := after_rename_bears adaptMetadata hid
      exact ⟨name, hbears.mono (afterAll_extends _ rest).model⟩
    · refine ih h ?_
      rwa [(s.after_extends request).model.size]

/-- No scope is opened or closed for the names of types. -/
lemma currentScope_after_rename (s : Renaming) (adaptMetadata : Bool) (id : TypeId) :
    (s.after (.rename adaptMetadata id)).registry.currentScope = s.registry.currentScope := by
  unfold after
  split
  · rename_i s' hs'
    rcases Nat.lt_or_ge id s.model.size with hid | hid
    · obtain ⟨s₁, stages, hs₁, hnames, -⟩ := s.renameType_names adaptMetadata hid
      obtain rfl := Except.ok.inj (hs₁.symm.trans hs')
      exact hnames.scope
    · exact nomatch (s.renameType_of_size_le adaptMetadata hid).symm.trans hs'
  · rfl

/-! ## The names that are given -/

lemma nameSince?_eq_some {m m' : Model} {id : TypeId} (h : m.nameSince? m' id = some name) :
    ∃ t, m.unnamed? id = some t ∧ m'.Bears id name := by
  obtain ⟨hunnamed, hname⟩ := Option.ite_none_right_eq_some.1 h
  obtain ⟨t, ht⟩ := Option.isSome_iff_exists.1 hunnamed
  obtain ⟨d, hd, hnew⟩ := Option.bind_eq_some_iff.1 hname
  refine ⟨t, ht, d, hd, ?_, ?_⟩
  · simp [KnownType.isSettled, hnew]
  · simp [KnownType.currentName, hnew]

lemma nameSince?_of_bears {m m' : Model} {id : TypeId} {t : ProgramType} (h : m.Grows m')
    (ht : m.unnamed? id = some t) (hbears : m'.Bears id name) :
    m.nameSince? m' id = some name := by
  obtain ⟨d, hd, hsettled, rfl⟩ := hbears
  have hsome : (m.unnamed? id).isSome = true := by rw [ht]; rfl
  rw [Model.nameSince?, if_pos hsome, hd]
  rcases h.types id with hsame | ⟨t', name, -, hnamed⟩
  · -- The type has not been settled in the meantime, then.
    rw [hsame, (Model.unnamed?_eq_some_iff.1 ht).1] at hd
    obtain rfl := Option.some.inj hd
    have hnone := (Model.unnamed?_eq_some_iff.1 ht).2
    simp [KnownType.isSettled, KnownType.isLibrary, KnownType.newName, hnone] at hsettled
  · obtain rfl := Option.some.inj (hd.symm.trans hnamed)
    rfl

/-- The names that types have got in the meantime have different folds. -/
lemma nodup_namesSince (h : s.Extends s') :
    ((s.model.namesSince s'.model).map s.registry.fold).Nodup := by
  rw [List.Nodup, List.pairwise_map, Model.namesSince, List.pairwise_filterMap]
  refine List.nodup_range.imp ?_
  intro id id' hne name hname name' hname'
  obtain ⟨t, ht, hbears⟩ := nameSince?_eq_some hname
  obtain ⟨t', ht', hbears'⟩ := nameSince?_eq_some hname'
  exact h.distinct hne ht ht' hbears hbears'

/-- What a request gives has not been reserved, and is so from then on. -/
theorem given_fresh (s : Renaming) (request : Request) (h : name ∈ s.given request) :
    s.registry.isReserved name = false ∧ (s.after request).registry.isReserved name = true := by
  cases request with
  | rename adaptMetadata id =>
    obtain ⟨id, -, hid⟩ := List.mem_filterMap.1 h
    obtain ⟨t, ht, hbears⟩ := nameSince?_eq_some hid
    exact (s.after_extends _).fresh ht hbears
  | topLevel oldName =>
    obtain rfl := List.mem_singleton.1 h
    have hgives := s.registry.nameTopLevel_gives oldName
    exact ⟨hgives.fresh, hgives.reserved⟩
  | nested enclosing =>
    obtain rfl := List.mem_singleton.1 h
    have hgives := s.registry.nameNested_gives enclosing
    exact ⟨hgives.fresh, hgives.reserved⟩
  | numbered enclosing =>
    obtain rfl := List.mem_singleton.1 h
    have hgives := s.registry.nameNumbered_gives enclosing
    exact ⟨hgives.fresh, hgives.reserved⟩
  | namespacePrefix | member | enter | leave | next => exact absurd h List.not_mem_nil

/-- The names that one request gives have different folds. -/
theorem nodup_given (s : Renaming) (request : Request) :
    ((s.given request).map s.registry.fold).Nodup := by
  cases request with
  | rename adaptMetadata id => exact nodup_namesSince (s.after_extends _)
  | topLevel | nested | numbered => exact List.nodup_singleton _
  | namespacePrefix | member | enter | leave | next => exact List.nodup_nil

/-- What is given in the course of a run had not been reserved at its beginning. -/
theorem givenAll_fresh (s : Renaming) (requests : List Request) (h : name ∈ s.givenAll requests) :
    s.registry.isReserved name = false := by
  induction requests generalizing s with
  | nil => exact absurd h List.not_mem_nil
  | cons request rest ih =>
    rcases List.mem_append.1 h with h | h
    · exact (s.given_fresh request h).1
    · exact (s.after_extends request).registry.extends.not_isReserved (ih _ h)

/-- All names that are given in the course of a run have different folds. -/
theorem nodup_givenAll (s : Renaming) (requests : List Request) :
    ((s.givenAll requests).map s.registry.fold).Nodup := by
  induction requests generalizing s with
  | nil => exact List.nodup_nil
  | cons request rest ih =>
    have hextends := (s.after_extends request).registry.extends
    have hfold : (s.after request).registry.fold = s.registry.fold := funext hextends.fold_eq
    rw [givenAll, List.map_append, List.nodup_append]
    refine ⟨s.nodup_given request, hfold ▸ ih (s.after request), ?_⟩
    intro x hx y hy
    obtain ⟨name, hname, rfl⟩ := List.mem_map.1 hx
    obtain ⟨later, hlater, rfl⟩ := List.mem_map.1 hy
    intro heq
    have hreserved := (s.given_fresh request hname).2
    rw [hextends.isReserved_congr heq, (s.after request).givenAll_fresh rest hlater] at hreserved
    exact nomatch hreserved

end Renaming
end Pseudonym
