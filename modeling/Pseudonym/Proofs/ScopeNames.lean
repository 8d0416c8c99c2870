import Pseudonym.Proofs.Renaming.Outcome

/-!
# Names in one scope

The names of a scope are drawn from the member sequence one after the other, and as long as nothing
else moves in that sequence they are different.  But members draw from it, too, and to name a member
restarts it whether a scope is open or not.  Names that the scope has already given can then come
again (`names_in_scope_repeat`).

Of all that a registry knows, only its `Place` has a part in this: the member sequence, the position
in it and the scope that is open.  What a request does to the place depends on the place alone
(`place_after`), so requests for names of types and namespaces do nothing to it.  Whether the names
of a scope differ can be told from the positions at which its requests leave the sequence
(`names_in_scope_differ_iff`).
-/

namespace Pseudonym

open Name.Sequence (Drawn)

/-! ## Places -/

/-- What a registry goes by when it names members and metadata: the sequence, how far it has been
followed, and the scope that is open. -/
structure Place where
  sequence : Name.Sequence
  position : Nat
  scope : Option Scope

/-- The place at which a registry stands. -/
def Registry.place (r : Registry) : Place :=
  ⟨r.memberSequence, r.memberPosition, r.currentScope⟩

namespace Place

/-- The place after a request. -/
def after (place : Place) : Request → Place
  | .member used =>
    let drawn := place.sequence.draw (fun name => !used.contains name) used.size 0
    { place with position := drawn.next }
  | .enter scope =>
    if place.scope = none then { place with scope := some scope, position := 0 } else place
  | .leave scope => if place.scope = some scope then { place with scope := none } else place
  | .next scope =>
    if place.scope = some scope then
      { place with position := (place.sequence.next place.position).next }
    else place
  | _ => place

/-- What a request draws for its scope. -/
def draws (place : Place) : Request → List Drawn
  | .next scope =>
    if place.scope = some scope then [place.sequence.next place.position] else []
  | _ => []

/-- What a list of requests draws for scopes, in order. -/
def drawsAll (place : Place) : List Request → List Drawn
  | [] => []
  | request :: rest => place.draws request ++ (place.after request).drawsAll rest

end Place

namespace Registry

/-- Deciding a prefix has nothing to do with the place. -/
lemma place_newPrefix (r : Registry) (outer : String) :
    (r.newPrefix outer).2.place = r.place :=
  newPrefix_induction (motive := fun s => s.place = r.place) rfl (fun _ _ _ _ hparent => hparent)
    outer

lemma place_nameTopLevel (r : Registry) (oldName : String) :
    (r.nameTopLevel oldName).2.place = r.place :=
  r.place_newPrefix _

end Registry

namespace Renaming

variable {s s' : Renaming}

lemma place_nameStage {stage : Stage} (h : s.nameStage stage = .ok s') :
    s'.registry.place = s.registry.place := by
  obtain ⟨name, hname⟩ := exists_nameFor_of_nameStage h
  obtain hanswer | ⟨enclosing, hanswer | hanswer⟩ := nameFor_cases hname
  · rw [(Prod.mk.inj hanswer).2]
    exact s.registry.place_nameTopLevel stage.name
  · rw [(Prod.mk.inj hanswer).2]
    rfl
  · rw [(Prod.mk.inj hanswer).2]
    rfl

lemma place_renameType {adaptMetadata : Bool} {id : TypeId}
    (h : s.renameType adaptMetadata id = .ok s') : s'.registry.place = s.registry.place := by
  cases ht : s.model.unnamed? id with
  | none =>
    rcases Nat.lt_or_ge id s.model.size with hid | hid
    · obtain rfl := Except.ok.inj ((s.renameType_settled adaptMetadata hid ht).symm.trans h)
      rfl
    · exact nomatch (s.renameType_of_size_le adaptMetadata hid).symm.trans h
  | some t =>
    rw [renameType_eq_chain adaptMetadata ht] at h
    exact foldlM_relates (R := fun s s' => s'.registry.place = s.registry.place) (fun _ => rfl)
      (fun h h' => h'.trans h) place_nameStage h

/-- A request changes the place as if there were nothing else. -/
theorem place_after (s : Renaming) (request : Request) :
    (s.after request).registry.place = s.registry.place.after request := by
  cases request with
  | rename adaptMetadata id =>
    unfold after
    split
    · rename_i s' hs'
      exact place_renameType hs'
    · rfl
  | topLevel oldName => exact s.registry.place_nameTopLevel oldName
  | nested | numbered | member => rfl
  | namespacePrefix outer => exact s.registry.place_newPrefix outer
  | enter scope =>
    cases hscope : s.registry.currentScope <;>
      simp [after, fulfil, Registry.enterScope, Place.after, Registry.place, hscope, bind,
        Except.bind, pure, Except.pure]
  | leave scope =>
    by_cases hscope : s.registry.currentScope = some scope <;>
      simp [after, fulfil, Registry.leaveScope, Place.after, Registry.place, hscope, bind,
        Except.bind, pure, Except.pure]
  | next scope =>
    by_cases hscope : s.registry.currentScope = some scope <;>
      simp [after, fulfil, Registry.nextInScope, Place.after, Registry.place, hscope, bind,
        Except.bind, pure, Except.pure]

/-! ## The names that are given in scopes -/

/-- The names that a request gives in its scope. -/
def scopeNames (s : Renaming) : Request → List String
  | .next scope =>
    match s.registry.nextInScope scope with
    | .ok (name, _) => [name]
    | .error _ => []
  | _ => []

/-- The names that a list of requests gives in scopes, in order. -/
def scopeNamesAll (s : Renaming) : List Request → List String
  | [] => []
  | request :: rest => s.scopeNames request ++ (s.after request).scopeNamesAll rest

lemma scopeNames_eq (s : Renaming) (request : Request) :
    s.scopeNames request = (s.registry.place.draws request).map Drawn.name := by
  cases request with
  | next scope =>
    by_cases hscope : s.registry.currentScope = some scope <;>
      simp [scopeNames, Registry.nextInScope, Place.draws, Registry.place, hscope]
  | rename | topLevel | nested | numbered | namespacePrefix | member | enter | leave => rfl

/-- The names in scopes are those that the places of a run draw. -/
theorem scopeNamesAll_eq (s : Renaming) (requests : List Request) :
    s.scopeNamesAll requests = (s.registry.place.drawsAll requests).map Drawn.name := by
  induction requests generalizing s with
  | nil => rfl
  | cons request rest ih =>
    rw [scopeNamesAll, Place.drawsAll, scopeNames_eq, ih, place_after, List.map_append]

end Renaming

/-! ## While a scope is open -/

namespace Request

/-- Whether a request is for a name in a scope. -/
def asksIn (scope : Scope) : Request → Bool
  | .next other => other = scope
  | _ => false

lemma asksIn_iff {scope : Scope} {request : Request} :
    request.asksIn scope = true ↔ request = .next scope := by
  cases request <;> simp [asksIn]

end Request

namespace Place

variable {place : Place} {scope : Scope} {request : Request} {requests : List Request}

/-- While a scope is open, all that moves the place are requests for its names and for members. -/
inductive Moves (place : Place) (scope : Scope) : Request → Prop where
  | next
      (hafter : place.after (.next scope) =
        { place with position := (place.sequence.next place.position).next })
      (hdraws : place.draws (.next scope) = [place.sequence.next place.position]) :
      Moves place scope (.next scope)
  | member {used : Std.ExtTreeSet String} {position : Nat}
      (hafter : place.after (.member used) = { place with position }) :
      Moves place scope (.member used)
  | stays {request : Request} (hafter : place.after request = place)
      (hdraws : place.draws request = []) (hasks : request.asksIn scope = false) :
      Moves place scope request

lemma moves (hopen : place.scope = some scope) (hstays : request ≠ .leave scope) :
    place.Moves scope request := by
  have hsome : place.scope ≠ none := by simp [hopen]
  cases request with
  | rename | topLevel | nested | numbered | namespacePrefix => exact .stays rfl rfl rfl
  | member used => exact .member rfl
  | enter other => exact .stays (if_neg hsome) rfl rfl
  | leave other =>
    refine .stays (if_neg fun hother => hstays ?_) rfl rfl
    rw [Option.some.inj (hother.symm.trans hopen)]
  | next other =>
    by_cases hother : other = scope
    · subst hother
      exact .next (if_pos hopen) (if_pos hopen)
    · have hclosed : place.scope ≠ some other := fun h =>
        hother (Option.some.inj (h.symm.trans hopen))
      exact .stays (if_neg hclosed) (if_neg hclosed) (decide_eq_false hother)

lemma scope_after (hopen : place.scope = some scope) (hstays : request ≠ .leave scope) :
    (place.after request).scope = some scope := by
  cases moves hopen hstays with
  | next hafter => rwa [hafter]
  | member hafter => rwa [hafter]
  | stays hafter => rwa [hafter]

lemma sequence_after (place : Place) (request : Request) :
    (place.after request).sequence = place.sequence := by
  cases request with
  | rename | topLevel | nested | numbered | namespacePrefix | member => rfl
  | enter | leave | next => exact (apply_ite Place.sequence _ _ _).trans (ite_self _)

/-- Everything that is drawn for scopes comes next in the sequence at some position. -/
lemma exists_next_of_mem_drawsAll {drawn : Drawn} (h : drawn ∈ place.drawsAll requests) :
    ∃ position, drawn = place.sequence.next position := by
  induction requests generalizing place with
  | nil => exact absurd h List.not_mem_nil
  | cons request rest ih =>
    rcases List.mem_append.1 h with h | h
    · unfold draws at h
      split at h
      · obtain ⟨-, h⟩ := List.mem_ite_nil_right.1 h
        exact ⟨_, List.mem_singleton.1 h⟩
      · exact absurd h List.not_mem_nil
    · rw [← place.sequence_after request]
      exact ih h

/-- The names that are drawn differ exactly if the positions after them do. -/
lemma nodup_name_drawsAll_iff :
    ((place.drawsAll requests).map Drawn.name).Nodup ↔
      ((place.drawsAll requests).map Drawn.next).Nodup := by
  rw [List.Nodup, List.Nodup, List.pairwise_map, List.pairwise_map]
  refine List.Pairwise.iff_of_mem fun hmem hmem' => not_congr ?_
  obtain ⟨position, rfl⟩ := exists_next_of_mem_drawsAll hmem
  obtain ⟨position', rfl⟩ := exists_next_of_mem_drawsAll hmem'
  exact Name.Sequence.name_next_eq_iff

/-- A member between two names does no harm if it takes a name that the scope has not come to. -/
example : (drawsAll ⟨.short true, 0, some .module⟩
    [.next .module, .member (.ofList ["a"]), .next .module]).map Drawn.name = ["a", "c"] := by
  decide +kernel

/-- As long as a scope is open, every request for a name in it is answered. -/
lemma length_drawsAll (hopen : place.scope = some scope) (hstays : .leave scope ∉ requests) :
    (place.drawsAll requests).length = requests.countP (Request.asksIn scope) := by
  induction requests generalizing place with
  | nil => rfl
  | cons request rest ih =>
    rw [List.mem_cons, not_or] at hstays
    have hopen' := scope_after hopen (Ne.symm hstays.1)
    rw [drawsAll, List.length_append, ih hopen' hstays.2, List.countP_cons]
    cases moves hopen (Ne.symm hstays.1) with
    | next _ hdraws => simp [hdraws, Request.asksIn, Nat.add_comm]
    | member => simp [draws, Request.asksIn]
    | stays _ hdraws hasks => simp [hdraws, hasks]

/-- Without a member between them, names are drawn at growing positions. -/
lemma pairwise_lt_drawsAll (hopen : place.scope = some scope) (hstays : .leave scope ∉ requests)
    (hlast : ∀ used, ¬ List.Sublist [.member used, .next scope] requests) :
    (place.position :: (place.drawsAll requests).map Drawn.next).Pairwise (· < ·) := by
  induction requests generalizing place with
  | nil => exact List.pairwise_singleton _ _
  | cons request rest ih =>
    rw [List.mem_cons, not_or] at hstays
    have hopen' := scope_after hopen (Ne.symm hstays.1)
    have hrest := ih hopen' hstays.2 fun used h => hlast used (h.cons _)
    rw [drawsAll]
    cases moves hopen (Ne.symm hstays.1) with
    | next hafter hdraws =>
      rw [hafter] at hrest ⊢
      have hlt := place.sequence.lt_next place.position
      rw [hdraws, List.singleton_append, List.map_cons]
      refine List.pairwise_cons.2 ⟨fun position hposition => ?_, hrest⟩
      rcases List.mem_cons.1 hposition with rfl | hposition
      · exact hlt
      · exact hlt.trans ((List.pairwise_cons.1 hrest).1 position hposition)
    | @member used =>
      -- After a member there is no request for a name any more.
      have hnone : .next scope ∉ rest := fun hmem =>
        hlast used ((List.singleton_sublist.2 hmem).cons_cons _)
      have hempty : (place.after (.member used)).drawsAll rest = [] := by
        rw [← List.length_eq_zero_iff, length_drawsAll hopen' hstays.2, List.countP_eq_zero]
        exact fun request hmem hasks => hnone (Request.asksIn_iff.1 hasks ▸ hmem)
      rw [hempty]
      exact List.pairwise_singleton _ _
    | stays hafter hdraws =>
      rw [hafter] at hrest ⊢
      rwa [hdraws]

/-- If no member is named between two of the names of a scope, they are drawn at different
positions. -/
lemma nodup_next_drawsAll (hopen : place.scope = some scope) (hstays : .leave scope ∉ requests)
    (hbetween : ∀ used, ¬ List.Sublist [.next scope, .member used, .next scope] requests) :
    ((place.drawsAll requests).map Drawn.next).Nodup := by
  induction requests generalizing place with
  | nil => exact List.nodup_nil
  | cons request rest ih =>
    have hstays' := hstays
    rw [List.mem_cons, not_or] at hstays'
    have hopen' := scope_after hopen (Ne.symm hstays'.1)
    have hrest := ih hopen' hstays'.2 fun used h => hbetween used (h.cons _)
    cases moves hopen (Ne.symm hstays'.1) with
    | next =>
      have hlast : ∀ used, ¬ List.Sublist [.member used, .next scope] (.next scope :: rest) := by
        intro used h
        cases h with
        | cons _ h => exact hbetween used (h.cons_cons _)
      exact (List.pairwise_cons.1 (pairwise_lt_drawsAll hopen hstays hlast)).2.imp Nat.ne_of_lt
    | member => exact hrest
    | stays _ hdraws => rwa [drawsAll, hdraws]

end Place

/-! ## The names of a scope -/

/-- The names of a scope differ exactly if they are drawn at different positions.  While a scope is
open, every request for a name in it is answered, and the names are those that are drawn from the
place of the registry, whatever else is asked for in the meantime.  They differ exactly if the
requests for them leave the member sequence at different positions.  That is always so if no member
is named between two of them. -/
theorem names_in_scope_differ_iff {s : Renaming} {scope : Scope}
    (hopen : s.registry.currentScope = some scope) {requests : List Request}
    (hstays : .leave scope ∉ requests) :
    (s.scopeNamesAll requests).length = requests.countP (Request.asksIn scope) ∧
      s.scopeNamesAll requests = (s.registry.place.drawsAll requests).map Drawn.name ∧
      ((s.scopeNamesAll requests).Nodup ↔
        ((s.registry.place.drawsAll requests).map Drawn.next).Nodup) ∧
      ((∀ used, ¬ List.Sublist [.next scope, .member used, .next scope] requests) →
        (s.scopeNamesAll requests).Nodup) := by
  have hplace : s.registry.place.scope = some scope := hopen
  rw [s.scopeNamesAll_eq, List.length_map, Place.nodup_name_drawsAll_iff]
  exact ⟨Place.length_drawsAll hplace hstays, rfl, Iff.rfl,
    Place.nodup_next_drawsAll hplace hstays⟩

/-- A pass in which the scope of modules has just been opened. -/
def Renaming.amongModules : Renaming :=
  (Renaming.start .empty .plain (.short true)).after (.enter .module)

/-- Two modules are named, with a type between them and a member after them. -/
theorem names_in_scope_differ_iff_modules :
    let s := Renaming.amongModules
    let requests : List Request :=
      [.next .module, .topLevel "com.Main", .next .module, .member ∅]
    s.registry.currentScope = some .module ∧ .leave .module ∉ requests ∧
      (∀ used, ¬ List.Sublist [.next .module, .member used, .next .module] requests) ∧
      (s.scopeNamesAll requests).length = 2 ∧
      ((s.registry.place.drawsAll requests).map Drawn.next).Nodup ∧
      (s.scopeNamesAll requests).Nodup := by
  intro s requests
  have hopen : s.registry.currentScope = some .module := rfl
  have hstays : .leave .module ∉ requests := by simp [requests]
  have hbetween : ∀ used,
      ¬ List.Sublist [.next .module, .member used, .next .module] requests := by
    intro used h
    simp [requests, List.sublist_cons_iff] at h
  obtain ⟨hlength, -, hiff, hnodup⟩ := names_in_scope_differ_iff hopen hstays
  exact ⟨hopen, hstays, hbetween, hlength, hiff.1 (hnodup hbetween), hnodup hbetween⟩

/-- When a member has been named between them, the third module gets the name of the second. -/
theorem names_in_scope_repeat :
    let s := Renaming.amongModules
    let requests : List Request := [.next .module, .next .module, .member ∅, .next .module]
    s.registry.currentScope = some .module ∧ .leave .module ∉ requests ∧
      s.scopeNamesAll requests = ["a", "b", "b"] ∧ ¬ (s.scopeNamesAll requests).Nodup := by
  intro s requests
  have hstays : .leave .module ∉ requests := by simp [requests]
  have hnames : s.scopeNamesAll requests = ["a", "b", "b"] := by decide +kernel
  refine ⟨rfl, hstays, hnames, ?_⟩
  rw [hnames]
  decide

end Pseudonym
