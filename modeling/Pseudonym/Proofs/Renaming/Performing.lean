import Pseudonym.Proofs.Renaming.Actions

/-!
# Performing the actions of a pass

The actions of a pass, performed one after the other, are the pass (`Model.rename_performs`).  Every
phase is followed through the code: a chain of types (`nameStages_performs`), a list of members
(`nameMembers_performs`), a list in a scope of its own (`nameInScope_performs`), and the fold over
the types of the program that puts these together (`foldlM_performs`).

An action draws its name from the state that it finds, while the code carries along what it needs:
the link of the next type in a chain, and the members whose names are in use.  The proofs show that
these are the same.
-/

namespace Pseudonym

/-! ## Types -/

namespace Model

variable {m : Model} {adaptMetadata : Bool} {id : TypeId} {t : ProgramType}

lemma getProgram_eq_ok (ht : m.types[id]? = some (.program t)) : m.getProgram id = .ok t := by
  rw [getProgram, get_eq_ok_iff.2 ht]
  rfl

/-- The first stage of a chain is what its type is to be named as before any of them is named. -/
lemma stageOf_of_isChain {stage : Stage} {rest : List Stage}
    (hchain : m.IsChain adaptMetadata (stage :: rest)) (ht : m.unnamed? stage.id = some t) :
    m.stageOf adaptMetadata stage.id t = stage := by
  cases hchain with
  | outermost hunnamed hlink _ =>
    obtain rfl := Option.some.inj (hunnamed.symm.trans ht)
    simp [stageOf, hlink]
  | settled hunnamed hlink hsettled _ =>
    obtain rfl := Option.some.inj (hunnamed.symm.trans ht)
    simp [stageOf, hlink, hsettled]
  | circular hunnamed hlink hback hrest =>
    obtain rfl := Option.some.inj (hunnamed.symm.trans ht)
    obtain ⟨outer, houter⟩ := hrest.unnamed hback
    simp [stageOf, hlink, houter]

end Model

namespace Renaming

variable {p : PassOptions} {s s' : Renaming} {id : TypeId} {stage : Stage} {t : ProgramType}

/-- A stage whose turn it is is named by one action. -/
lemma perform_type (ht : s.model.unnamed? stage.id = some t)
    (hstage : s.model.stageOf p.adaptMetadata stage.id t = stage) :
    s.perform p (.write (.type stage.id)) = s.nameStage stage := by
  have hget := Model.getProgram_eq_ok (Model.unnamed?_eq_some_iff.1 ht).1
  simp only [perform, draw, nameStage, Model.write, bind, Except.bind, hget, hstage]

/-- Once a stage can be named, it is named by an action, and so are those that lead inwards from
it. -/
lemma nameStages_performs {rest : List Stage} (ht : s.model.unnamed? stage.id = some t)
    (hstage : s.model.stageOf p.adaptMetadata stage.id t = stage) (hready : s.Ready stage)
    (hrest : s.model.Inwards p.adaptMetadata stage.id rest)
    (hnodup : ((stage :: rest).map Stage.id).Nodup) :
    ∃ s', (stage :: rest).foldlM nameStage s = .ok s' ∧
      s.Performs p ((stage :: rest).map fun stage => .write (.type stage.id)) s' := by
  induction rest generalizing s stage t with
  | nil =>
    obtain ⟨s', hs', -⟩ := nameStage_ready ht hready
    refine ⟨s', ?_, .single ((perform_type ht hstage).trans hs')⟩
    rw [List.foldlM_cons, hs']
    rfl
  | cons next rest ih =>
    obtain ⟨s₁, hs₁, hnames⟩ := nameStage_ready ht hready
    have hfirst : s.Performs p [.write (.type stage.id)] s₁ :=
      .single ((perform_type ht hstage).trans hs₁)
    obtain ⟨name, hbears, -⟩ := hnames.named stage List.mem_cons_self
    cases hnames.inwards hrest hnodup with
    | @cons _ id t numbered _ hunnamed hlink hrest =>
      -- The type around the next one has its name by now, so that the link counts.
      have hnext : s₁.model.stageOf p.adaptMetadata id t =
          ⟨id, t.name, some ⟨stage.id, numbered⟩⟩ := by
        simp [Model.stageOf, hlink, hbears.unnamed?]
      obtain ⟨s', hs', hperforms⟩ := ih hunnamed hnext
        (fun link h => by
          obtain rfl := Option.some.inj h
          exact ⟨name, hbears⟩)
        hrest (List.nodup_cons.1 hnodup).2
      refine ⟨s', ?_, hfirst.append hperforms⟩
      rw [List.foldlM_cons, hs₁]
      exact hs'

/-- A chain is named by one action for each of its types. -/
lemma nameChain_performs {stages : List Stage} (hchain : s.model.IsChain p.adaptMetadata stages)
    (hnodup : (stages.map Stage.id).Nodup) (hs' : stages.foldlM nameStage s = .ok s') :
    s.Performs p (((stages.map Stage.id).map .type).map .write) s' := by
  obtain ⟨first, rest, t, rfl, ht, hready, hrest⟩ := exists_ready_of_isChain hchain
  obtain ⟨s₁, hs₁, hperforms⟩ :=
    nameStages_performs ht (Model.stageOf_of_isChain hchain ht) hready hrest hnodup
  obtain rfl := Except.ok.inj (hs'.symm.trans hs₁)
  rw [List.map_map, List.map_map]
  exact hperforms

/-- When a type has its turn, it and those around it are named by an action for each that has no
name. -/
lemma renameType_performs (p : PassOptions) (s : Renaming) (hid : id < s.model.size) :
    ∃ s', s.renameType p.adaptMetadata id = .ok s' ∧
      s.Performs p (((s.model.chainIds p.adaptMetadata id).map .type).map .write) s' ∧
      ∀ m : Model, m.Alike s.model →
        ((m.chainIds p.adaptMetadata id).foldl Model.settle m).Alike s'.model := by
  cases hunnamed : s.model.unnamed? id with
  | none =>
    have hids := Model.chainIds_of_settled p.adaptMetadata hunnamed
    refine ⟨s, s.renameType_settled p.adaptMetadata hid hunnamed, ?_, fun m halike => ?_⟩
    · rw [hids]
      exact .refl s
    · rw [← halike.chainIds, hids]
      exact halike
  | some t =>
    obtain ⟨s', hs', hnames⟩ := s.renameType_chain p.adaptMetadata hunnamed
    obtain ⟨hchain, hnodup, -⟩ := Model.chain_isChain p.adaptMetadata hunnamed
    have hids := Model.chainIds_of_unnamed p.adaptMetadata hunnamed
    refine ⟨s', hs', ?_, fun m halike => ?_⟩
    · rw [hids]
      exact nameChain_performs hchain hnodup
        ((renameType_eq_chain p.adaptMetadata hunnamed).symm.trans hs')
    · rw [← halike.chainIds, hids]
      refine halike.settle hnames.grows.model (fun i hi => ?_) hnames.unchanged
      obtain ⟨stage, hstage, rfl⟩ := List.mem_map.1 hi
      obtain ⟨name, hbears, -⟩ := hnames.named stage hstage
      exact hbears.unnamed?

/-- All types are named by an action for each that has no name. -/
theorem renameTypes_performs (p : PassOptions) (s : Renaming) :
    ∃ s', s.renameTypes p.adaptMetadata = .ok s' ∧
      s.Performs p (s.model.typeActions p.adaptMetadata) s' := by
  have hfold : ∀ (ids : List TypeId) (m : Model) (s : Renaming), m.Alike s.model →
      (∀ id ∈ ids, id < m.size) →
      ∃ s', ids.foldlM (renameType · p.adaptMetadata) s = .ok s' ∧
        s.Performs p (((m.namingOrder p.adaptMetadata ids).map .type).map .write) s' := by
    intro ids
    induction ids with
    | nil => exact fun m s _ _ => ⟨s, rfl, .refl s⟩
    | cons id rest ih =>
      intro m s halike hids
      have hid := hids id List.mem_cons_self
      rw [← halike.size] at hid
      obtain ⟨s₁, hs₁, hfirst, hlater⟩ := renameType_performs p s hid
      obtain ⟨s', hs', hrest⟩ := ih _ s₁ (hlater m halike) fun i hi => by
        rw [(m.grows_foldl_settle _).size]
        exact hids i (List.mem_cons_of_mem _ hi)
      refine ⟨s', ?_, ?_⟩
      · rw [List.foldlM_cons, hs₁]
        exact hs'
      · rw [halike.chainIds] at hfirst
        rw [Model.namingOrder, List.map_append, List.map_append]
        exact hfirst.append hrest
  exact hfold _ _ s (.refl s.model) fun id hid => Model.lt_size_of_mem_programIds hid

end Renaming

/-! ## Members and declarations -/

namespace ProgramType

variable {t : ProgramType} {d : Declarations}

lemma withDeclarations_self (h : t.declarations? = some d) : t.withDeclarations d = t := by
  obtain ⟨metadata, hmetadata, hd⟩ := Option.bind_eq_some_iff.1 h
  have hsame : metadata.withDeclarations d = metadata := by
    cases metadata with
    | multiFileFacade | syntheticClass => rfl
    | ofClass | fileFacade | multiFilePart =>
      obtain rfl := Option.some.inj hd
      rfl
  rw [withDeclarations, hmetadata, Option.map_some, hsame, ← hmetadata]

end ProgramType

lemma modify_append_cons {α : Type} (f : α → α) (before : List α) (x : α) (rest : List α) :
    (before ++ x :: rest).modify before.length f = before ++ f x :: rest := by
  rw [List.modify_eq_take_cons_drop (by simp)]
  simp

namespace Model

variable {m : Model} {id : TypeId} {t t' : ProgramType}

lemma replace_replace (m : Model) (id : TypeId) (t t' : ProgramType) :
    (m.replace id t).replace id t' = m.replace id t' := by
  simp [replace]

/-- A type that has just been put in its place. -/
lemma getProgram_replace (h : (m.types[id]?).isSome = true) (t : ProgramType) :
    (m.replace id t).getProgram id = .ok t :=
  getProgram_eq_ok (by rw [getElem?_replace_of_isSome h, if_pos rfl])

lemma change_replace (h : (m.types[id]?).isSome = true) (t : ProgramType)
    (f : ProgramType → ProgramType) : (m.replace id t).change id f = .ok (m.replace id (f t)) := by
  simp only [change, bind, Except.bind, getProgram_replace h, replace_replace]
  rfl

end Model

section

variable {settled before rest : List Member} {x x' : Member}

/-- Which names are around a member does not depend on the order of the others. -/
lemma Member.namesAround_perm {others others' : List Member} (h : others.Perm others')
    (overload : Bool) (x : Member) :
    x.namesAround overload others' = x.namesAround overload others := by
  refine Std.ExtTreeSet.ext_mem fun name => ?_
  simp [namesAround, h.mem_iff]

/-- The names around the next member are those of all that are settled when its turn comes. -/
lemma ProgramType.namesAround_next
    (h : settled.Perm ((before ++ x :: rest).filter (·.isSettled))) (overload : Bool)
    (t : ProgramType) : namesAround overload { t with members := before ++ x :: rest }
      before.length = x.namesAround overload settled := by
  have hat : (before ++ x :: rest)[before.length]? = some x := by simp
  rw [namesAround, hat]
  exact Member.namesAround_perm h overload x

/-- A member that is named in its place is settled with the others. -/
lemma Member.settled_named (hx : ¬ x.isSettled = true) (hx' : x'.isSettled = true)
    (h : settled.Perm ((before ++ x :: rest).filter (·.isSettled))) :
    (x' :: settled).Perm ((before ++ x' :: rest).filter (·.isSettled)) := by
  rw [List.filter_append, List.filter_cons_of_neg hx] at h
  rw [List.filter_append, List.filter_cons_of_pos hx']
  exact (h.cons x').trans List.perm_middle.symm

end

namespace Registry

open Renaming (Performs)

variable {p : PassOptions} {r : Registry}

/-- Naming the last members of a type is performing an action for each that is not settled. -/
theorem nameMembers_performs {m : Model} {id : TypeId} (h : (m.types[id]?).isSome = true)
    (t : ProgramType) (r : Registry) (settled before rest : List Member)
    (hsettled : settled.Perm ((before ++ rest).filter (·.isSettled))) :
    Performs p ⟨r, m.replace id { t with members := before ++ rest }⟩
      ((Member.openSlots id before.length rest).map .write)
      ⟨(r.nameMembers p.overload settled rest).2, m.replace id
        { t with members := before ++ (r.nameMembers p.overload settled rest).1 }⟩ := by
  induction rest generalizing r settled before with
  | nil => exact .refl _
  | cons x rest ih =>
    unfold nameMembers Member.openSlots
    split
    · have hrest := ih r settled (before ++ [x]) (by simpa using hsettled)
      simpa using hrest
    · rename_i hx
      set used := x.namesAround p.overload settled
      set x' : Member := { x with newName := some (r.nameMember used).1 } with hx'
      have hnamed : x'.isSettled = true := by simp [hx', Member.isSettled]
      have haround : ProgramType.namesAround p.overload { t with members := before ++ x :: rest }
          before.length = used := ProgramType.namesAround_next hsettled p.overload t
      have hdraw : Renaming.draw p ⟨r, m.replace id { t with members := before ++ x :: rest }⟩
          (.member id before.length) = .ok (r.nameMember used) := by
        simp only [Renaming.draw, bind, Except.bind, Model.getProgram_replace h, haround]
        rfl
      have hwrite : (m.replace id { t with members := before ++ x :: rest }).write
          (r.nameMember used).1 (.member id before.length) =
            .ok (m.replace id { t with members := before ++ x' :: rest }) := by
        rw [Model.write, Model.change_replace h, ProgramType.nameMemberAt, modify_append_cons]
      have hrest := ih (r.nameMember used).2 (x' :: settled) (before ++ [x']) (by
        simpa using Member.settled_named hx hnamed hsettled)
      simp only [List.append_assoc, List.singleton_append, List.length_append,
        List.length_singleton] at hrest
      exact (Performs.write hdraw hwrite).append hrest

/-! ## Lists in a scope -/

section

variable (scope : Scope) (slot : Nat → Slot) (place : List Named → Model)

/-- Naming the last items of a list, wherever it is, is performing an action for each. -/
lemma nameEach_performs (hdraw : ∀ (r : Registry) (m : Model) (index : Nat),
      Renaming.draw p ⟨r, m⟩ (slot index) = r.nextInScope scope)
    (hplace : ∀ items index name, (place items).write name (slot index) =
      .ok (place (items.modify index (·.withNewName name))))
    (hscope : r.currentScope = some scope) (before rest : List Named) :
    ∃ named r', r.nameEach scope rest = .ok (named, r') ∧ r'.currentScope = some scope ∧
      Performs p ⟨r, place (before ++ rest)⟩
        (((List.range' before.length rest.length).map slot).map .write)
        ⟨r', place (before ++ named)⟩ := by
  induction rest generalizing r before with
  | nil => exact ⟨[], r, rfl, hscope, .refl _⟩
  | cons item rest ih =>
    obtain ⟨name, r₁, hnext, hscope⟩ := nextInScope_open hscope
    obtain ⟨named, r', hnamed, hscope, hrest⟩ := ih hscope (before ++ [item.withNewName name])
    have hwrite : (place (before ++ item :: rest)).write name (slot before.length) =
        .ok (place (before ++ item.withNewName name :: rest)) := by
      rw [hplace, modify_append_cons]
    refine ⟨item.withNewName name :: named, r', ?_, hscope, ?_⟩
    · simp only [nameEach, bind, Except.bind, hnext, hnamed]
      rfl
    · simp only [List.append_assoc, List.singleton_append, List.length_append,
        List.length_singleton] at hrest
      exact (Performs.write ((hdraw _ _ _).trans hnext) hwrite).append hrest

/-- Naming a list in a scope of its own is performing the actions that name its items. -/
theorem nameInScope_performs (hdraw : ∀ (r : Registry) (m : Model) (index : Nat),
      Renaming.draw p ⟨r, m⟩ (slot index) = r.nextInScope scope)
    (hplace : ∀ items index name, (place items).write name (slot index) =
      .ok (place (items.modify index (·.withNewName name))))
    (hscope : r.currentScope = none) (items : List Named) :
    ∃ named r', r.nameInScope scope items = .ok (named, r') ∧ r'.currentScope = none ∧
      Performs p ⟨r, place items⟩
        (Action.inScope scope ((List.range items.length).map slot)) ⟨r', place named⟩ := by
  obtain ⟨r₁, henter, hopen⟩ := enterScope_closed scope hscope
  obtain ⟨named, r₂, hnamed, hopen, hperforms⟩ :=
    nameEach_performs scope slot place hdraw hplace hopen [] items
  obtain ⟨r₃, hleave, hclosed⟩ := leaveScope_open hopen
  refine ⟨named, r₃, ?_, hclosed, ?_⟩
  · simp only [nameInScope, bind, Except.bind, henter, hnamed, hleave]
    rfl
  · have hfirst : Performs p ⟨r, place items⟩ [.enter scope] ⟨r₁, place items⟩ :=
      .single (by simp only [Renaming.perform, henter]; rfl)
    have hlast : Performs p ⟨r₂, place named⟩ [.leave scope] ⟨r₃, place named⟩ :=
      .single (by simp only [Renaming.perform, hleave]; rfl)
    rw [List.range_eq_range']
    exact (hfirst.append hperforms).append hlast

end

end Registry

/-! ## Phases that change every type by itself -/

namespace Renaming

variable {p : PassOptions} {s s' : Renaming} {id : TypeId} {t : ProgramType} {ids : List TypeId}

/-- If a step changes one type of the program by actions of its own, the fold over different types
performs the actions of all of them. -/
lemma foldlM_performs {step : Renaming → TypeId → Except Misuse Renaming}
    {part : TypeId → ProgramType → List Action}
    (hstep : ∀ (s : Renaming) (id : TypeId) (t : ProgramType), s.registry.currentScope = none →
      s.model.types[id]? = some (.program t) →
      ∃ r t', step s id = .ok ⟨r, s.model.replace id t'⟩ ∧ r.currentScope = none ∧
        s.Performs p (part id t) ⟨r, s.model.replace id t'⟩)
    (hscope : s.registry.currentScope = none)
    (hids : ∀ id ∈ ids, ∃ t, s.model.types[id]? = some (.program t)) (hnodup : ids.Nodup) :
    ∃ s', ids.foldlM step s = .ok s' ∧ s.Performs p (s.model.collect part ids) s' := by
  induction ids generalizing s with
  | nil => exact ⟨s, rfl, .refl s⟩
  | cons first rest ih =>
    obtain ⟨t, ht⟩ := hids first List.mem_cons_self
    obtain ⟨r, t', hs₁, hscope₁, hfirst⟩ := hstep s first t hscope ht
    obtain ⟨hnew, hnodup⟩ := List.nodup_cons.1 hnodup
    have hsame : ∀ id ∈ rest, (s.model.replace first t').types[id]? = s.model.types[id]? := by
      intro id hid
      have hne : first ≠ id := fun heq => hnew (heq ▸ hid)
      rw [Model.getElem?_replace_of_isSome (by rw [ht]; rfl), if_neg hne]
    obtain ⟨s', hs', hrest⟩ := ih (s := ⟨r, s.model.replace first t'⟩) hscope₁
      (fun id hid => by rw [hsame id hid]; exact hids id (List.mem_cons_of_mem _ hid)) hnodup
    have hpart : (s.model.replace first t').collect part rest = s.model.collect part rest :=
      List.flatMap_congr fun id hid => by rw [hsame id hid]
    refine ⟨s', ?_, ?_⟩
    · rw [List.foldlM_cons, hs₁]
      exact hs'
    · have hall := hfirst.append hrest
      rw [hpart] at hall
      rw [Model.collect, List.flatMap_cons, ht]
      exact hall

lemma renameMembersOf_performs (p : PassOptions) (hscope : s.registry.currentScope = none)
    (ht : s.model.types[id]? = some (.program t)) :
    ∃ r t', s.renameMembersOf p.overload id = .ok ⟨r, s.model.replace id t'⟩ ∧
      r.currentScope = none ∧ s.Performs p ((Member.openSlots id 0 t.members).map .write)
        ⟨r, s.model.replace id t'⟩ := by
  have hget : s.model.get id = .ok (.program t) := by
    rw [Model.get, ht]
  have hid : (s.model.types[id]?).isSome = true := by
    rw [ht]
    rfl
  have hperforms := Registry.nameMembers_performs (p := p) hid t s.registry
    (t.members.filter (·.isSettled)) [] t.members (.refl _)
  refine ⟨(s.registry.renameMembers p.overload t).2, (s.registry.renameMembers p.overload t).1, ?_,
    ?_, ?_⟩
  · simp only [renameMembersOf, bind, Except.bind, hget]
    rfl
  · exact (Registry.currentScope_nameMembers p.overload _ _ _).trans hscope
  · have hself : s.model.replace id { t with members := [] ++ t.members } = s.model :=
      Model.replace_self ht
    rw [hself] at hperforms
    exact hperforms

theorem renameMembers_performs (p : PassOptions) (s : Renaming)
    (hscope : s.registry.currentScope = none) :
    ∃ s', s.renameMembers p.overload = .ok s' ∧ s.Performs p s.model.memberActions s' :=
  foldlM_performs (fun _ _ _ hscope ht => renameMembersOf_performs p hscope ht) hscope
    (fun _ hid => Model.mem_programIds.1 hid) (Model.nodup_programIds _)

lemma renameDeclarationsOf_performs (p : PassOptions) (hscope : s.registry.currentScope = none)
    (ht : s.model.types[id]? = some (.program t)) :
    ∃ r t', s.renameDeclarationsOf Registry.nameDeclarations id =
        .ok ⟨r, s.model.replace id t'⟩ ∧ r.currentScope = none ∧
      s.Performs p (t.declarationActions id) ⟨r, s.model.replace id t'⟩ := by
  have hget : s.model.get id = .ok (.program t) := by
    rw [Model.get, ht]
  cases hlists : t.declarations? with
  | none =>
    refine ⟨s.registry, t, ?_, hscope, ?_⟩
    · simp only [renameDeclarationsOf, bind, Except.bind, hget, hlists, Model.replace_self ht]
      rfl
    · rw [ProgramType.declarationActions, hlists, Model.replace_self ht]
      exact .refl s
  | some d =>
    have hid : (s.model.types[id]?).isSome = true := by
      rw [ht]
      rfl
    set withLists := fun d : Declarations => s.model.replace id (t.withDeclarations d) with hwith
    have hself : withLists d = s.model := by
      rw [hwith]
      dsimp only
      rw [ProgramType.withDeclarations_self hlists, Model.replace_self ht]
    have hchange : ∀ d' f, (withLists d').change id (·.changeDeclarations f) =
        .ok (withLists (f d')) := by
      intro d' f
      rw [hwith]
      dsimp only
      rw [Model.change_replace hid, ProgramType.changeDeclarations_withDeclarations hlists]
    obtain ⟨typeAliases, r₁, haliases, hscope₁, hfirst⟩ :=
      Registry.nameInScope_performs (p := p) .typeAlias (.typeAlias id)
        (fun items => withLists { d with typeAliases := items }) (fun _ _ _ => rfl)
        (fun items index name => hchange _ _) hscope d.typeAliases
    obtain ⟨properties, r₂, hproperties, hscope₂, hsecond⟩ :=
      Registry.nameInScope_performs (p := p) .property (.property id)
        (fun items => withLists ⟨typeAliases, items⟩) (fun _ _ _ => rfl)
        (fun items index name => hchange _ _) hscope₁ d.properties
    refine ⟨r₂, t.withDeclarations ⟨typeAliases, properties⟩, ?_, hscope₂, ?_⟩
    · simp only [renameDeclarationsOf, Registry.nameDeclarations, Registry.nameTypeAliases,
        Registry.nameProperties, bind, Except.bind, pure, Except.pure, hget, hlists, haliases,
        hproperties]
    · rw [ProgramType.declarationActions, hlists]
      have hall := hfirst.append hsecond
      rw [show withLists { d with typeAliases := d.typeAliases } = s.model from hself] at hall
      exact hall

theorem renameMetadata_performs (p : PassOptions) (s : Renaming)
    (hscope : s.registry.currentScope = none) :
    ∃ s', s.renameMetadata = .ok s' ∧ s.Performs p s.model.metadataActions s' := by
  obtain ⟨modules, r, hmodules, hscope₁, hfirst⟩ :=
    Registry.nameInScope_performs (p := p) .module .module
      (fun items => { s.model with modules := items }) (fun _ _ _ => rfl)
      (fun items index name => rfl) hscope s.model.modules
  obtain ⟨s', hs', hrest⟩ :=
    foldlM_performs (s := ⟨r, { s.model with modules }⟩)
      (fun _ _ _ hscope ht => renameDeclarationsOf_performs p hscope ht) hscope₁
      (fun _ hid => Model.mem_programIds.1 hid) (Model.nodup_programIds _)
  refine ⟨s', ?_, hfirst.append hrest⟩
  have hrenamed : s.renameModules = .ok ⟨r, { s.model with modules }⟩ := by
    simp only [renameModules, bind, Except.bind, hmodules]
    rfl
  simp only [renameMetadata, bind, Except.bind, hrenamed]
  exact hs'

end Renaming

/-! ## The whole pass -/

/-- A pass is never refused, and it is its actions performed one after the other. -/
theorem Model.rename_performs (m : Model) (p : PassOptions) :
    ∃ s, m.rename p = .ok s ∧
      (Renaming.start m p.naming p.memberSequence).Performs p (m.actions p) s := by
  obtain ⟨s₁, hs₁, htypes⟩ :=
    (Renaming.start m p.naming p.memberSequence).renameTypes_performs p
  obtain rfl : m.withTypesNamed p = s₁ :=
    Except.ok.inj ((m.renameTypes_start p).symm.trans hs₁)
  have hgrows : m.Grows (m.withTypesNamed p).model := (m.withTypesNamed_extends p).model
  obtain ⟨s₂, hs₂, hmembers⟩ :=
    Renaming.renameMembers_performs p (m.withTypesNamed p) (m.currentScope_withTypesNamed p)
  rw [hgrows.memberActions] at hmembers
  have hearly : (Renaming.start m p.naming p.memberSequence).Performs p
      (m.typeActions p.adaptMetadata ++ m.memberActions) s₂ := htypes.append hmembers
  simp only [m.rename_eq_bind, bind, Except.bind, hs₂, actions]
  cases hadapt : p.adaptMetadata with
  | false =>
    rw [hadapt] at hearly
    exact ⟨s₂, rfl, by simpa using hearly⟩
  | true =>
    rw [hadapt] at hearly
    obtain ⟨s₂', hs₂', hchanges⟩ :=
      (m.withTypesNamed p).renameMembers_changes p.overload (m.currentScope_withTypesNamed p)
    obtain rfl := Except.ok.inj (hs₂.symm.trans hs₂')
    obtain ⟨position, hregistry⟩ := hchanges.registry
    obtain ⟨s₃, hs₃, hmetadata⟩ := Renaming.renameMetadata_performs p s₂ (by rw [hregistry]; rfl)
    rw [metadataActions_of_types hchanges.types_eq hchanges.modules, hgrows.metadataActions]
      at hmetadata
    exact ⟨s₃, hs₃, hearly.append hmetadata⟩

end Pseudonym
