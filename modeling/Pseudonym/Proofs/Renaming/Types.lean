import Pseudonym.Proofs.Naming.Forms
import Pseudonym.Proofs.Renaming.Chain
import Pseudonym.Renaming.Types

/-!
# Renaming a type goes through

A stage can be named as soon as the type around it has its name (`nameStage_ready`).  A chain is
arranged so that this is the case for one stage after the other, and so a type of the program can
always be renamed (`renameType_names`).

`Names s stages s'` says what has happened then.  The state has grown, each of the stages has a
name of the form that its link asks for, and no other type of the model has changed.
-/

namespace Pseudonym

/-- Whether a type has a name for good. -/
def Model.Bears (m : Model) (id : TypeId) (name : String) : Prop :=
  ∃ d, m.types[id]? = some d ∧ d.isSettled = true ∧ d.currentName = name

namespace Model

variable {m m' : Model} {adaptMetadata : Bool} {id outer : TypeId} {t : ProgramType}
  {name other : String} {stages : List Stage}

lemma Bears.mono (hbears : m.Bears id name) (h : m.Grows m') : m'.Bears id name := by
  obtain ⟨d, hd, hsettled, hname⟩ := hbears
  exact ⟨d, h.settled hd hsettled, hsettled, hname⟩

lemma Bears.eq (h : m.Bears id name) (h' : m.Bears id other) : name = other := by
  obtain ⟨d, hd, -, rfl⟩ := h
  obtain ⟨d', hd', -, rfl⟩ := h'
  rw [hd] at hd'
  rw [Option.some.inj hd']

lemma Bears.currentName (h : m.Bears id name) : m.currentName id = .ok name := by
  obtain ⟨d, hd, -, rfl⟩ := h
  exact currentName_eq_ok hd

lemma Bears.unnamed? (h : m.Bears id name) : m.unnamed? id = none := by
  obtain ⟨d, hd, hsettled, -⟩ := h
  refine unnamed?_eq_none_iff.2 fun d' hd' => ?_
  rw [hd] at hd'
  exact Option.some.inj hd' ▸ hsettled

lemma exists_bears {d : KnownType} (hd : m.types[id]? = some d) (h : m.unnamed? id = none) :
    ∃ name, m.Bears id name :=
  ⟨_, d, hd, unnamed?_eq_none_iff.1 h d hd, rfl⟩

/-- A type without a name either has still none, and is the same, or it has been given one. -/
lemma Grows.unnamed_or_bears (h : m.Grows m') (ht : m.unnamed? id = some t) :
    m'.unnamed? id = some t ∨ ∃ name, m'.Bears id name := by
  rcases h.types id with hsame | ⟨t', name, ht', hnamed⟩
  · rw [unnamed?_eq_some_iff, hsame]
    exact .inl (unnamed?_eq_some_iff.1 ht)
  · exact .inr ⟨name, _, hnamed, rfl, rfl⟩

/-- A type that is not among those without a name has the name that it had. -/
lemma Grows.bears_of_settled (h : m.Grows m') (hnone : m.unnamed? id = none)
    (hbears : m'.Bears id name) : m.Bears id name := by
  rcases h.types id with hsame | ⟨t, -, ht, -⟩
  · obtain ⟨d, hd, hrest⟩ := hbears
    exact ⟨d, hsame ▸ hd, hrest⟩
  · simp [hnone] at ht

lemma bears_replace_self (ht : m.unnamed? id = some t) (name : String) :
    (m.replace id (t.withNewName name)).Bears id name := by
  refine ⟨.program (t.withNewName name), ?_, rfl, rfl⟩
  rw [getElem?_replace ht, if_pos rfl]

/-- Of the types that had no name, only the one that is given one has one then. -/
lemma bears_replace (ht : m.unnamed? id = some t) {name other : String} {id' : TypeId}
    {t' : ProgramType} (ht' : m.unnamed? id' = some t')
    (hbears : (m.replace id (t.withNewName name)).Bears id' other) : id' = id ∧ other = name := by
  by_cases hid : id' = id
  · subst hid
    exact ⟨rfl, hbears.eq (bears_replace_self ht name)⟩
  · obtain ⟨d, hd, hsettled, hother⟩ := hbears
    rw [getElem?_replace ht, if_neg (Ne.symm hid)] at hd
    have hnone := Bears.unnamed? ⟨d, hd, hsettled, hother⟩
    simp [ht'] at hnone

/-- Types that are to be named one inside the other stay so as long as they have not been named. -/
lemma Inwards.mono (hstages : m.Inwards adaptMetadata outer stages) (h : m.Grows m')
    (hsame : ∀ id ∈ stages.map Stage.id, m'.types[id]? = m.types[id]?) :
    m'.Inwards adaptMetadata outer stages := by
  induction hstages with
  | nil => exact .nil _
  | cons hunnamed hlink _ ih =>
    rw [List.map_cons, List.forall_mem_cons] at hsame
    refine .cons ?_ ?_ (ih hsame.2)
    · rw [unnamed?_eq_some_iff] at hunnamed ⊢
      exact ⟨hsame.1.trans hunnamed.1, hunnamed.2⟩
    · rw [h.link, hlink]

end Model

namespace Renaming

variable {s s' s'' : Renaming} {adaptMetadata : Bool} {id : TypeId} {stage : Stage}
  {stages stages' : List Stage}

/-! ## Later states -/

/-- A later state of a pass.  Registry and model have grown, and the names that types have got in
the meantime have all come from the registry. -/
structure Extends (s s' : Renaming) : Prop where
  registry : Registry.Steps s.registry s'.registry
  model : s.model.Grows s'.model
  fresh : ∀ {id t name}, s.model.unnamed? id = some t → s'.model.Bears id name →
    s.registry.isReserved name = false ∧ s'.registry.isReserved name = true
  distinct : ∀ {id id' t t' name name'}, id ≠ id' → s.model.unnamed? id = some t →
    s.model.unnamed? id' = some t' → s'.model.Bears id name → s'.model.Bears id' name' →
    s.registry.fold name ≠ s.registry.fold name'

namespace Extends

/-- A registry may go on without a change of the model. -/
lemma of_steps {registry : Registry} (h : Registry.Steps s.registry registry) :
    s.Extends ⟨registry, s.model⟩ where
  registry := h
  model := .refl s.model
  fresh ht hbears := by simp [hbears.unnamed?] at ht
  distinct _ ht _ hbears := by simp [hbears.unnamed?] at ht

lemma refl (s : Renaming) : s.Extends s := of_steps .refl

lemma trans (h : s.Extends s') (h' : s'.Extends s'') : s.Extends s'' where
  registry := h.registry.trans h'.registry
  model := h.model.trans h'.model
  fresh := by
    intro id t name ht hbears
    rcases h.model.unnamed_or_bears ht with ht' | ⟨name', hbears'⟩
    · obtain ⟨hfresh, hreserved⟩ := h'.fresh ht' hbears
      exact ⟨h.registry.extends.not_isReserved hfresh, hreserved⟩
    · obtain rfl := (hbears'.mono h'.model).eq hbears
      obtain ⟨hfresh, hreserved⟩ := h.fresh ht hbears'
      exact ⟨hfresh, h'.registry.extends.isReserved hreserved⟩
  distinct := by
    intro id id' t t' name name' hne ht ht' hbears hbears' hfold
    -- What one of the types got first was reserved when the other got its name.
    rcases h.model.unnamed_or_bears ht with hu | ⟨first, hfirst⟩ <;>
      rcases h.model.unnamed_or_bears ht' with hu' | ⟨first', hfirst'⟩
    · rw [← h.registry.extends.fold_eq, ← h.registry.extends.fold_eq] at hfold
      exact h'.distinct hne hu hu' hbears hbears' hfold
    · obtain rfl := (hfirst'.mono h'.model).eq hbears'
      have hfresh := (h'.fresh hu hbears).1
      rw [h.registry.extends.isReserved_congr hfold, (h.fresh ht' hfirst').2] at hfresh
      exact nomatch hfresh
    · obtain rfl := (hfirst.mono h'.model).eq hbears
      have hfresh := (h'.fresh hu' hbears').1
      rw [← h.registry.extends.isReserved_congr hfold, (h.fresh ht hfirst).2] at hfresh
      exact nomatch hfresh
    · obtain rfl := (hfirst.mono h'.model).eq hbears
      obtain rfl := (hfirst'.mono h'.model).eq hbears'
      exact h.distinct hne ht ht' hfirst hfirst' hfold

end Extends

/-! ## Stages -/

/-- Whether a name has the form that a link asks for, if there is one. -/
def Fits (s : Renaming) (oldName : String) (link : Option Link) (name : String) : Prop :=
  match link with
  | none => s.registry.IsTopLevel oldName name
  | some link => ∃ enclosing, s.model.Bears link.outer enclosing ∧
      s.registry.IsInside enclosing link.numbered name

lemma Fits.mono {oldName name : String} {link : Option Link} (hfits : s.Fits oldName link name)
    (hregistry : s.registry.Extends s'.registry) (hmodel : s.model.Grows s'.model) :
    s'.Fits oldName link name := by
  cases link with
  | none => exact Registry.IsTopLevel.mono hfits hregistry
  | some link =>
    obtain ⟨enclosing, houter, hinside⟩ := hfits
    exact ⟨enclosing, houter.mono hmodel, hinside.mono hregistry⟩

/-- Whether the type of a stage has a name of the form that the link of the stage asks for. -/
def Named (s : Renaming) (stage : Stage) : Prop :=
  ∃ name, s.model.Bears stage.id name ∧ s.Fits stage.name stage.link name

lemma Named.mono (hnamed : s.Named stage) (h : s.Extends s') : s'.Named stage := by
  obtain ⟨name, hbears, hfits⟩ := hnamed
  exact ⟨name, hbears.mono h.model, hfits.mono h.registry.extends h.model⟩

/-- A state goes on to one where the types of some stages have been named and no others. -/
structure Names (s : Renaming) (stages : List Stage) (s' : Renaming) : Prop where
  grows : s.Extends s'
  scope : s'.registry.currentScope = s.registry.currentScope
  named : ∀ stage ∈ stages, s'.Named stage
  unchanged : ∀ id ∉ stages.map Stage.id, s'.model.types[id]? = s.model.types[id]?

lemma Names.refl (s : Renaming) : s.Names [] s :=
  ⟨.refl s, rfl, fun _ h => absurd h List.not_mem_nil, fun _ _ => rfl⟩

lemma Names.append (h : s.Names stages s') (h' : s'.Names stages' s'') :
    s.Names (stages ++ stages') s'' where
  grows := h.grows.trans h'.grows
  scope := h'.scope.trans h.scope
  named stage hstage := by
    rcases List.mem_append.1 hstage with hstage | hstage
    · exact (h.named stage hstage).mono h'.grows
    · exact h'.named stage hstage
  unchanged id hid := by
    rw [List.map_append, List.mem_append, not_or] at hid
    rw [h'.unchanged id hid.2, h.unchanged id hid.1]

/-- Whether the type around a stage has its name. -/
def Ready (s : Renaming) (stage : Stage) : Prop :=
  ∀ link, stage.link = some link → ∃ enclosing, s.model.Bears link.outer enclosing

/-- The registry gives a stage a name of the right form. -/
lemma nameFor_ready (hready : s.Ready stage) :
    ∃ name registry, s.nameFor stage = .ok (name, registry) ∧ s.registry.Gives name registry ∧
      Fits ⟨registry, s.model⟩ stage.name stage.link name := by
  unfold nameFor
  cases hlink : stage.link with
  | none =>
    exact ⟨_, _, rfl, s.registry.nameTopLevel_gives stage.name,
      s.registry.isTopLevel_nameTopLevel stage.name⟩
  | some link =>
    obtain ⟨outer, numbered⟩ := link
    obtain ⟨enclosing, houter⟩ := hready _ hlink
    simp only [houter.currentName]
    cases numbered with
    | true =>
      exact ⟨_, _, rfl, s.registry.nameNumbered_gives enclosing, enclosing, houter,
        s.registry.isInside_nameNumbered enclosing⟩
    | false =>
      exact ⟨_, _, rfl, s.registry.nameNested_gives enclosing, enclosing, houter,
        s.registry.isInside_nameNested enclosing⟩

/-- A stage whose turn it is can be named. -/
theorem nameStage_ready {t : ProgramType} (ht : s.model.unnamed? stage.id = some t)
    (hready : s.Ready stage) : ∃ s', s.nameStage stage = .ok s' ∧ s.Names [stage] s' := by
  obtain ⟨name, registry, hname, hgives, hfits⟩ := nameFor_ready hready
  have hgrows := Model.Grows.replace ht name
  have honly : ∀ {id t' name'}, s.model.unnamed? id = some t' →
      (s.model.replace stage.id (t.withNewName name)).Bears id name' →
      id = stage.id ∧ name' = name := Model.bears_replace ht
  refine ⟨⟨registry, s.model.replace stage.id (t.withNewName name)⟩, ?_,
    ⟨hgives.steps, hgrows, ?_, ?_⟩, hgives.scope, ?_, ?_⟩
  · simp only [nameStage, hname, Model.assign_of_unnamed ht]
    rfl
  · intro id t' name' hunnamed hbears
    obtain ⟨-, rfl⟩ := honly hunnamed hbears
    exact ⟨hgives.fresh, hgives.reserved⟩
  · intro id id' t' t'' name' name'' hne hunnamed hunnamed' hbears hbears'
    exact absurd ((honly hunnamed hbears).1.trans (honly hunnamed' hbears').1.symm) hne
  · rw [List.forall_mem_singleton]
    exact ⟨name, Model.bears_replace_self ht name, hfits.mono (.refl registry) hgrows⟩
  · intro id hid
    rw [List.map_singleton, List.mem_singleton] at hid
    rw [Model.getElem?_replace ht, if_neg (Ne.symm hid)]

/-- When a stage has been named, those that lead inwards from it still do. -/
lemma Names.inwards (h : s.Names [stage] s')
    (hstages : s.model.Inwards adaptMetadata stage.id stages)
    (hnodup : ((stage :: stages).map Stage.id).Nodup) :
    s'.model.Inwards adaptMetadata stage.id stages := by
  rw [List.map_cons, List.nodup_cons] at hnodup
  refine hstages.mono h.grows.model fun id hid => h.unchanged id fun hmem => hnodup.1 ?_
  rw [List.map_singleton, List.mem_singleton] at hmem
  exact hmem ▸ hid

/-- Once a stage can be named, those that lead inwards from it can be named after it. -/
theorem nameStages_ready {rest : List Stage} {t : ProgramType}
    (ht : s.model.unnamed? stage.id = some t) (hready : s.Ready stage)
    (hrest : s.model.Inwards adaptMetadata stage.id rest)
    (hnodup : ((stage :: rest).map Stage.id).Nodup) :
    ∃ s', (stage :: rest).foldlM nameStage s = .ok s' ∧ s.Names (stage :: rest) s' := by
  induction rest generalizing s stage t with
  | nil =>
    obtain ⟨s', hs', hnames⟩ := nameStage_ready ht hready
    refine ⟨s', ?_, hnames⟩
    rw [List.foldlM_cons, hs']
    rfl
  | cons next rest ih =>
    obtain ⟨s₁, hs₁, hnames⟩ := nameStage_ready ht hready
    obtain ⟨name, hbears, -⟩ := hnames.named stage List.mem_cons_self
    cases hnames.inwards hrest hnodup with
    | cons hunnamed hlink hrest =>
      obtain ⟨s', hs', hnames'⟩ := ih hunnamed
        (fun link h => by
          obtain rfl := Option.some.inj h
          exact ⟨name, hbears⟩)
        hrest (List.nodup_cons.1 hnodup).2
      refine ⟨s', ?_, hnames.append hnames'⟩
      rw [List.foldlM_cons, hs₁]
      exact hs'

/-- The first stage of a chain can be named, and the others lead inwards from it. -/
lemma exists_ready_of_isChain (hchain : s.model.IsChain adaptMetadata stages) :
    ∃ first rest t, stages = first :: rest ∧ s.model.unnamed? first.id = some t ∧ s.Ready first ∧
      s.model.Inwards adaptMetadata first.id rest := by
  cases hchain with
  | outermost hunnamed hlink hrest =>
    exact ⟨_, _, _, rfl, hunnamed, (fun _ h => nomatch h), hrest⟩
  | circular hunnamed hlink hback hrest =>
    exact ⟨_, _, _, rfl, hunnamed, (fun _ h => nomatch h), hrest⟩
  | settled hunnamed hlink hsettled hrest =>
    obtain ⟨d, hd, -⟩ := Model.link_eq_some hlink
    refine ⟨_, _, _, rfl, hunnamed, fun link h => ?_, hrest⟩
    exact Option.some.inj h ▸ Model.exists_bears hd hsettled

/-- A chain of stages can be named from the outside in. -/
theorem nameStages_isChain (hchain : s.model.IsChain adaptMetadata stages)
    (hnodup : (stages.map Stage.id).Nodup) :
    ∃ s', stages.foldlM nameStage s = .ok s' ∧ s.Names stages s' := by
  obtain ⟨first, rest, t, rfl, ht, hready, hrest⟩ := exists_ready_of_isChain hchain
  exact nameStages_ready ht hready hrest hnodup

/-! ## Types -/

/-- For a type without a name, its chain is named. -/
lemma renameType_eq_chain {t : ProgramType} (adaptMetadata : Bool)
    (ht : s.model.unnamed? id = some t) :
    s.renameType adaptMetadata id = (s.model.chain adaptMetadata id t).foldlM nameStage s := by
  have hget : s.model.get id = .ok (.program t) := by
    rw [Model.get, (Model.unnamed?_eq_some_iff.1 ht).1]
  simp only [renameType, hget, ht]
  rfl

/-- Renaming a type without a name names the stages of its chain. -/
theorem renameType_chain {t : ProgramType} (s : Renaming) (adaptMetadata : Bool)
    (ht : s.model.unnamed? id = some t) :
    ∃ s', s.renameType adaptMetadata id = .ok s' ∧
      s.Names (s.model.chain adaptMetadata id t) s' := by
  obtain ⟨hchain, hnodup, -⟩ := Model.chain_isChain adaptMetadata ht
  obtain ⟨s', hs', hnames⟩ := nameStages_isChain hchain hnodup
  exact ⟨s', (renameType_eq_chain adaptMetadata ht).trans hs', hnames⟩

lemma renameType_settled (s : Renaming) (adaptMetadata : Bool) (hid : id < s.model.size)
    (hsettled : s.model.unnamed? id = none) : s.renameType adaptMetadata id = .ok s := by
  have hget : s.model.get id = .ok s.model.types[id] := by
    rw [Model.get, Array.getElem?_eq_getElem hid]
  simp only [renameType, hget, hsettled]
  rfl

/-- Renaming a type names the stages of a chain, or none if the type is settled. -/
theorem renameType_names (s : Renaming) (adaptMetadata : Bool) (hid : id < s.model.size) :
    ∃ s' stages, s.renameType adaptMetadata id = .ok s' ∧ s.Names stages s' ∧
      (stages = [] ∧ s.model.unnamed? id = none ∨
        s.model.IsChain adaptMetadata stages ∧ id ∈ stages.map Stage.id) := by
  cases hunnamed : s.model.unnamed? id with
  | none =>
    exact ⟨s, [], s.renameType_settled adaptMetadata hid hunnamed, .refl s, .inl ⟨rfl, rfl⟩⟩
  | some t =>
    obtain ⟨s', hs', hnames⟩ := s.renameType_chain adaptMetadata hunnamed
    obtain ⟨hchain, -, hmem⟩ := Model.chain_isChain adaptMetadata hunnamed
    exact ⟨s', _, hs', hnames, .inr ⟨hchain, hmem⟩⟩

lemma renameType_of_size_le (s : Renaming) (adaptMetadata : Bool) (hid : s.model.size ≤ id) :
    s.renameType adaptMetadata id = .error (.unknownType id) := by
  have hget : s.model.get id = .error (.unknownType id) := by
    rw [Model.get, Array.getElem?_eq_none hid]
  rw [renameType, hget]
  rfl

end Renaming
end Pseudonym
