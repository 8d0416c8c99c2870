import Pseudonym.Proofs.Renaming.Requests

/-!
# Nested types are named inside the types that enclose them

A type with a link ends up inside the type that the link goes to, under the name that this type has
in the end.  For records that make sense nothing more is to be said.  But records may run in
circles, and not every type of a circle can have its name inside the next one, since a name inside
another is longer.  On each circle exactly one type is named as if it had no link.

The invariant of a run of visits is `Contained`: every type that has been named has a name that fits
its link, or it is on a circle all of whose other types have such names.  A visit keeps it because
it names a whole circle at once.  It follows that with a type all those have names that its links
lead to, one after the other (`Contained.bears_of_leads`).
-/

namespace Pseudonym

open Relation (TransGen ReflTransGen)

namespace Model

variable {m m' : Model} {adaptMetadata : Bool} {i j : TypeId} {t : ProgramType}
  {stages : List Stage} {stage : Stage}

/-- As long as types have no names, they lead where they led before. -/
lemma Grows.leads_iff (h : m.Grows m') (ht : m'.unnamed? i = some t) :
    m.Leads adaptMetadata i j ↔ m'.Leads adaptMetadata i j := by
  have ht₀ := h.unnamed ht
  constructor
  · rintro ⟨t', link, ht', hlink, rfl⟩
    rw [ht₀] at ht'
    obtain rfl := Option.some.inj ht'
    exact ⟨t, link, ht, by rw [h.link, hlink], rfl⟩
  · rintro ⟨t', link, ht', hlink, rfl⟩
    rw [h.link] at hlink
    exact ⟨t', link, h.unnamed ht', hlink, rfl⟩

lemma Grows.leads (h : m.Grows m') (hleads : m'.Leads adaptMetadata i j) :
    m.Leads adaptMetadata i j := by
  obtain ⟨t, -, ht, -⟩ := id hleads
  exact (h.leads_iff ht).2 hleads

/-- Where the way outwards has run into a circle, it has met all of it. -/
lemma mem_of_circle {id : TypeId} {link : Link} {rest : List Stage} (h : m.Grows m')
    (ht : m'.unnamed? id = some t) (hlink : m'.link adaptMetadata t = some link)
    (hback : link.outer ∈ rest.map Stage.id) (hrest : m'.Inwards adaptMetadata id rest)
    (hj : ReflTransGen (m.Leads adaptMetadata) id j) : j ∈ id :: rest.map Stage.id := by
  induction hj with
  | refl => exact List.mem_cons_self
  | @tail j k _ hstep ih =>
    rcases List.mem_cons.1 ih with rfl | hmem
    · have hk := ((h.leads_iff ht).1 hstep).eq ⟨t, link, ht, hlink, rfl⟩
      exact List.mem_cons_of_mem _ (hk ▸ hback)
    · obtain ⟨t', ht'⟩ := hrest.unnamed hmem
      exact hrest.mem_of_leads hmem ((h.leads_iff ht').1 hstep)

lemma transGen_of_circle {id : TypeId} {link : Link} {rest : List Stage} (h : m.Grows m')
    (ht : m'.unnamed? id = some t) (hlink : m'.link adaptMetadata t = some link)
    (hback : link.outer ∈ rest.map Stage.id) (hrest : m'.Inwards adaptMetadata id rest) :
    TransGen (m.Leads adaptMetadata) id id := by
  have hloop : TransGen (m'.Leads adaptMetadata) id id :=
    .head ⟨t, link, ht, hlink, rfl⟩ (hrest.transGen hback)
  exact TransGen.mono (fun _ _ => h.leads) _ _ hloop

end Model

namespace Renaming

variable {m : Model} {s s' : Renaming} {adaptMetadata : Bool} {i j : TypeId} {t : ProgramType}
  {name : String} {stages : List Stage}

/-- Whether a type that had no name in a model has a name inside the type that its link goes to. -/
def IsContained (s : Renaming) (m : Model) (adaptMetadata : Bool) (i : TypeId) : Prop :=
  ∃ t link enclosing name, m.unnamed? i = some t ∧ m.link adaptMetadata t = some link ∧
    s.model.Bears link.outer enclosing ∧ s.model.Bears i name ∧
    s.registry.IsInside enclosing link.numbered name

/-- Whether a type that had no name in a model has a name like a type that lies in no other. -/
def IsOutermost (s : Renaming) (m : Model) (i : TypeId) : Prop :=
  ∃ t name, m.unnamed? i = some t ∧ s.model.Bears i name ∧ s.registry.IsTopLevel t.name name

/-- How a type can have been named. -/
inductive Placed (s : Renaming) (m : Model) (adaptMetadata : Bool) (i : TypeId) : Prop where
  | unlinked {t : ProgramType} (ht : m.unnamed? i = some t)
      (hlink : m.link adaptMetadata t = none) (houtermost : s.IsOutermost m i)
  | contained (hcontained : s.IsContained m adaptMetadata i)
  | circular (hloop : TransGen (m.Leads adaptMetadata) i i) (houtermost : s.IsOutermost m i)
      (hothers : ∀ j, ReflTransGen (m.Leads adaptMetadata) i j → j ≠ i →
        s.IsContained m adaptMetadata j)

/-- Whether on the way outwards from a type exactly one is called like a type in no other, while the
others are called inside those that they lead to. -/
def OneIsOutermost (s : Renaming) (m : Model) (adaptMetadata : Bool) (i : TypeId) : Prop :=
  ∃ j, ReflTransGen (m.Leads adaptMetadata) i j ∧ s.IsOutermost m j ∧
    ¬ s.IsContained m adaptMetadata j ∧
    ∀ k, ReflTransGen (m.Leads adaptMetadata) i k → k ≠ j → s.IsContained m adaptMetadata k

lemma IsContained.mono (h : s.IsContained m adaptMetadata i) (hs : s.Extends s') :
    s'.IsContained m adaptMetadata i := by
  obtain ⟨t, link, enclosing, name, ht, hlink, houter, hbears, hinside⟩ := h
  exact ⟨t, link, enclosing, name, ht, hlink, houter.mono hs.model, hbears.mono hs.model,
    hinside.mono hs.registry.extends⟩

lemma IsOutermost.mono (h : s.IsOutermost m i) (hs : s.Extends s') : s'.IsOutermost m i := by
  obtain ⟨t, name, ht, hbears, htop⟩ := h
  exact ⟨t, name, ht, hbears.mono hs.model, htop.mono hs.registry.extends⟩

lemma Placed.mono (h : s.Placed m adaptMetadata i) (hs : s.Extends s') :
    s'.Placed m adaptMetadata i := by
  cases h with
  | unlinked ht hlink houtermost => exact .unlinked ht hlink (houtermost.mono hs)
  | contained hcontained => exact .contained (hcontained.mono hs)
  | circular hloop houtermost hothers =>
    exact .circular hloop (houtermost.mono hs) fun j hj hne => (hothers j hj hne).mono hs

/-- A type with a link is contained, or it is on a circle and the only one there that is not. -/
lemma Placed.of_leads (h : s.Placed m adaptMetadata i) (hleads : m.Leads adaptMetadata i j) :
    s.IsContained m adaptMetadata i ∨
      TransGen (m.Leads adaptMetadata) i i ∧ s.IsOutermost m i ∧
        ∀ k, ReflTransGen (m.Leads adaptMetadata) i k → k ≠ i →
          s.IsContained m adaptMetadata k := by
  obtain ⟨t, link, ht, hlink, -⟩ := hleads
  cases h with
  | unlinked ht' hnone =>
    obtain rfl := Option.some.inj (ht.symm.trans ht')
    exact nomatch hlink.symm.trans hnone
  | contained hcontained => exact .inl hcontained
  | circular hloop houtermost hothers => exact .inr ⟨hloop, houtermost, hothers⟩

/-- A type inside another is called longer than the type it leads to. -/
lemma IsContained.length_lt (h : s.IsContained m adaptMetadata i)
    (hleads : m.Leads adaptMetadata i j) : ∃ name enclosing, s.model.Bears i name ∧
      s.model.Bears j enclosing ∧ enclosing.length < name.length := by
  obtain ⟨t, link, enclosing, name, ht, hlink, houter, hbears, hinside⟩ := h
  obtain rfl := hleads.eq ⟨t, link, ht, hlink, rfl⟩
  exact ⟨name, enclosing, hbears, houter, hinside.length_lt⟩

/-! ## What a visit does -/

/-- A stage that has been named as the link of its type says is contained. -/
lemma Named.isContained {stage : Stage} {link : Link} (h : m.Grows s.model)
    (hnamed : s'.Named stage) (ht : s.model.unnamed? stage.id = some t)
    (hlink : s.model.link adaptMetadata t = some link) (hstage : stage.link = some link) :
    s'.IsContained m adaptMetadata stage.id := by
  obtain ⟨name, hbears, hfits⟩ := hnamed
  rw [hstage] at hfits
  obtain ⟨enclosing, houter, hinside⟩ := hfits
  rw [h.link] at hlink
  exact ⟨t, link, enclosing, name, h.unnamed ht, hlink, houter, hbears, hinside⟩

lemma Named.isOutermost {stage : Stage} (h : m.Grows s.model) (hnamed : s'.Named stage)
    (ht : s.model.unnamed? stage.id = some t) (hname : stage.name = t.name)
    (hstage : stage.link = none) : s'.IsOutermost m stage.id := by
  obtain ⟨name, hbears, hfits⟩ := hnamed
  rw [hstage, hname] at hfits
  exact ⟨t, name, h.unnamed ht, hbears, hfits⟩

/-- All types of a chain are placed when it has been named. -/
lemma placed_of_isChain (h : m.Grows s.model) (hchain : s.model.IsChain adaptMetadata stages)
    (hnames : s.Names stages s') (hi : i ∈ stages.map Stage.id) :
    s'.Placed m adaptMetadata i := by
  -- Behind the first stage all are contained.
  have hinner : ∀ {head : Stage} {rest : List Stage} {j : TypeId}, stages = head :: rest →
      s.model.Inwards adaptMetadata head.id rest → j ∈ rest.map Stage.id →
      s'.IsContained m adaptMetadata j := by
    rintro head rest j rfl hrest hj
    obtain ⟨stage, hstage, rfl⟩ := List.mem_map.1 hj
    obtain ⟨t, link, ht, -, hlink, hstageLink⟩ := hrest.link_eq hstage
    exact (hnames.named stage (List.mem_cons_of_mem _ hstage)).isContained h ht hlink hstageLink
  cases hchain with
  | outermost hunnamed hlink hrest =>
    rcases List.mem_cons.1 hi with rfl | hi
    · have hhead := (hnames.named _ List.mem_cons_self).isOutermost h hunnamed rfl rfl
      exact .unlinked (h.unnamed hunnamed) (h.link _ _ ▸ hlink) hhead
    · exact .contained (hinner rfl hrest hi)
  | settled hunnamed hlink _ hrest =>
    rcases List.mem_cons.1 hi with rfl | hi
    · exact .contained ((hnames.named _ List.mem_cons_self).isContained h hunnamed hlink rfl)
    · exact .contained (hinner rfl hrest hi)
  | circular hunnamed hlink hback hrest =>
    rcases List.mem_cons.1 hi with rfl | hi
    · have hhead := (hnames.named _ List.mem_cons_self).isOutermost h hunnamed rfl rfl
      refine .circular (Model.transGen_of_circle h hunnamed hlink hback hrest) hhead ?_
      intro j hj hne
      have hmem := Model.mem_of_circle h hunnamed hlink hback hrest hj
      exact hinner rfl hrest ((List.mem_cons.1 hmem).resolve_left hne)
    · exact .contained (hinner rfl hrest hi)

/-- The invariant of a run of visits: all types that have been named are placed. -/
structure Contained (s : Renaming) (m : Model) (adaptMetadata : Bool) : Prop where
  grows : m.Grows s.model
  placed : ∀ {i t name}, m.unnamed? i = some t → s.model.Bears i name →
    s.Placed m adaptMetadata i

lemma Contained.start (s : Renaming) (adaptMetadata : Bool) :
    s.Contained s.model adaptMetadata where
  grows := .refl s.model
  placed ht hbears := by simp [hbears.unnamed?] at ht

/-- A visit keeps the invariant. -/
theorem Contained.after (h : s.Contained m adaptMetadata) (id : TypeId) :
    (s.after (.rename adaptMetadata id)).Contained m adaptMetadata := by
  rcases Nat.lt_or_ge id s.model.size with hid | hid
  · obtain ⟨s', stages, hs', hnames, hstages⟩ := s.renameType_names adaptMetadata hid
    rw [after_of_ok (show s.fulfil (.rename adaptMetadata id) = .ok s' from hs')]
    refine ⟨h.grows.trans hnames.grows.model, fun {i t name} ht hbears => ?_⟩
    by_cases hi : i ∈ stages.map Stage.id
    · rcases hstages with ⟨rfl, -⟩ | ⟨hchain, -⟩
      · exact absurd hi List.not_mem_nil
      · exact placed_of_isChain h.grows hchain hnames hi
    · obtain ⟨d, hd, hrest⟩ := hbears
      rw [hnames.unchanged i hi] at hd
      exact (h.placed ht ⟨d, hd, hrest⟩).mono hnames.grows
  · have hrefused : s.after (.rename adaptMetadata id) = s := by
      rw [Renaming.after, fulfil, s.renameType_of_size_le adaptMetadata hid]
    rwa [hrefused]

/-- Every run of visits keeps the invariant. -/
theorem Contained.afterAll (h : s.Contained m adaptMetadata) (ids : List TypeId) :
    (s.afterAll (ids.map (.rename adaptMetadata))).Contained m adaptMetadata := by
  induction ids generalizing s with
  | nil => exact h
  | cons id rest ih => exact ih (h.after id)

/-- A type that a named type leads to has a name as well. -/
lemma Contained.bears_of_leads (h : s.Contained m adaptMetadata) (hbears : s.model.Bears i name)
    (hleads : m.Leads adaptMetadata i j) : ∃ other, s.model.Bears j other := by
  obtain ⟨t, -, ht, -⟩ := id hleads
  rcases (h.placed ht hbears).of_leads hleads with hcontained | ⟨-, -, hothers⟩
  · obtain ⟨-, other, -, hother, -⟩ := hcontained.length_lt hleads
    exact ⟨other, hother⟩
  · obtain ⟨-, -, -, other, -, -, -, hother, -⟩ := hothers j (.single hleads) hleads.ne.symm
    exact ⟨other, hother⟩

lemma Contained.bears_of_reaches (h : s.Contained m adaptMetadata) (hbears : s.model.Bears i name)
    (hpath : ReflTransGen (m.Leads adaptMetadata) i j) : ∃ other, s.model.Bears j other := by
  induction hpath with
  | refl => exact ⟨name, hbears⟩
  | tail _ hleads ih =>
    obtain ⟨other, hother⟩ := ih
    exact h.bears_of_leads hother hleads

/-- A type that has no link, or has a name outside the type that its link goes to, is called like a
type in no other. -/
lemma Contained.isOutermost (h : s.Contained m adaptMetadata) (ht : m.unnamed? i = some t)
    (hbears : s.model.Bears i name)
    (houtside : m.link adaptMetadata t = none ∨ ¬ s.IsContained m adaptMetadata i) :
    s.IsOutermost m i := by
  cases h.placed ht hbears with
  | unlinked _ _ houtermost => exact houtermost
  | circular _ houtermost _ => exact houtermost
  | contained hcontained =>
    obtain ⟨t', link, -, -, ht', hlink, -⟩ := id hcontained
    rw [ht] at ht'
    obtain rfl := Option.some.inj ht'
    rcases houtside with hnone | hnot
    · rw [hlink] at hnone
      exact nomatch hnone
    · exact absurd hcontained hnot

/-! ## Circles -/

/-- On a circle with a type that has a name, not all types can have theirs inside the next one. -/
lemma exists_not_isContained (hloop : TransGen (m.Leads adaptMetadata) i i)
    (hbears : s.model.Bears i name) :
    ∃ j other, ReflTransGen (m.Leads adaptMetadata) i j ∧ s.model.Bears j other ∧
      ¬ s.IsContained m adaptMetadata j := by
  by_contra hall
  push Not at hall
  -- Otherwise names would get shorter on the way around.
  have hshort : ∀ j, TransGen (m.Leads adaptMetadata) i j →
      ∃ other, s.model.Bears j other ∧ other.length < name.length := by
    intro j hj
    induction hj with
    | single hstep =>
      obtain ⟨name', other, hname', hother, hlt⟩ := (hall i name .refl hbears).length_lt hstep
      exact ⟨other, hother, hname'.eq hbears ▸ hlt⟩
    | tail hpath hstep ih =>
      obtain ⟨middle, hmiddle, hlt⟩ := ih
      obtain ⟨middle', other, hmiddle', hother, hlt'⟩ :=
        (hall _ middle hpath.to_reflTransGen hmiddle).length_lt hstep
      exact ⟨other, hother, hlt'.trans (hmiddle'.eq hmiddle ▸ hlt)⟩
  obtain ⟨other, hother, hlt⟩ := hshort i hloop
  exact absurd hlt (by rw [hother.eq hbears]; exact Nat.lt_irrefl _)

/-- On a circle with a type that has a name, exactly one type is called like a type in no other. -/
lemma Contained.oneIsOutermost (h : s.Contained m adaptMetadata)
    (hloop : TransGen (m.Leads adaptMetadata) i i) (hbears : s.model.Bears i name) :
    s.OneIsOutermost m adaptMetadata i := by
  obtain ⟨j, other, hj, hother, hnot⟩ := exists_not_isContained hloop hbears
  have hback := Model.transGen_of_loop hloop hj
  obtain ⟨k, hleads, -⟩ := TransGen.head'_iff.1 hback
  obtain ⟨t, -, ht, -⟩ := id hleads
  obtain ⟨-, houtermost, hothers⟩ := ((h.placed ht hother).of_leads hleads).resolve_left hnot
  refine ⟨j, hj, houtermost, hnot, fun k hk hne => hothers k ?_ hne⟩
  exact hback.to_reflTransGen.trans hk

end Renaming

/-- Nested names are contained.  Whatever types are visited in whatever order, a type that has been
visited has a name, and so has every type that the way outwards from it leads to.  A type that has
been named is called like a type in no other if it has no link.  If it has one, it is called inside
the type that the link goes to, or it is on a circle of links and is called like a type in no other.
On each circle the latter happens to exactly one type. -/
theorem nested_names_are_contained (s : Renaming) (adaptMetadata : Bool) (ids : List TypeId) :
    let m := s.model
    let last := s.afterAll (ids.map (.rename adaptMetadata))
    (∀ id ∈ ids, id < m.size → ∀ i, ReflTransGen (m.Leads adaptMetadata) id i →
      ∃ name, last.model.Bears i name) ∧
    (∀ i t name, m.unnamed? i = some t → last.model.Bears i name →
      (m.link adaptMetadata t = none → last.IsOutermost m i) ∧
      ∀ link, m.link adaptMetadata t = some link → last.IsContained m adaptMetadata i ∨
        TransGen (m.Leads adaptMetadata) i i ∧ last.IsOutermost m i) ∧
    (∀ i name, TransGen (m.Leads adaptMetadata) i i → last.model.Bears i name →
      last.OneIsOutermost m adaptMetadata i) ∧
    ∀ id ∈ ids, ∀ i, ReflTransGen (m.Leads adaptMetadata) id i →
      TransGen (m.Leads adaptMetadata) i i → last.OneIsOutermost m adaptMetadata i := by
  intro m last
  have hcontained : last.Contained m adaptMetadata :=
    (Renaming.Contained.start s adaptMetadata).afterAll ids
  have hnamed : ∀ id ∈ ids, id < m.size → ∀ i, ReflTransGen (m.Leads adaptMetadata) id i →
      ∃ name, last.model.Bears i name := by
    intro id hid hlt i hpath
    obtain ⟨name, hbears⟩ :=
      Renaming.afterAll_bears (List.mem_map_of_mem (f := Request.rename adaptMetadata) hid) hlt
    exact hcontained.bears_of_reaches hbears hpath
  refine ⟨hnamed, fun i t name ht hbears => ⟨fun hnone => ?_, fun link hlink => ?_⟩,
    fun i name hloop hbears => hcontained.oneIsOutermost hloop hbears,
    fun id hid i hpath hloop => ?_⟩
  · exact hcontained.isOutermost ht hbears (.inl hnone)
  · refine ((hcontained.placed ht hbears).of_leads ⟨t, link, ht, hlink, rfl⟩).imp_right ?_
    rintro ⟨hloop, houtermost, -⟩
    exact ⟨hloop, houtermost⟩
  · -- A type that leads anywhere is one of the model.
    obtain ⟨-, ⟨t, -, ht, -⟩, -⟩ := TransGen.head'_iff.1 (TransGen.trans_right hpath hloop)
    obtain ⟨name, hbears⟩ := hnamed id hid (Model.lt_size_of_unnamed ht) i hpath
    exact hcontained.oneIsOutermost hloop hbears

/-- A type in one of a library, three types one in the other, and two that are recorded to lie in
each other. -/
def Model.nestings : Model where
  types := #[.library ⟨"lib.Base", none⟩,
    .program ((ProgramType.named "lib.Base$In").nestedIn "lib.Base"),
    .program (.named "com.Outer"),
    .program ((ProgramType.named "com.Outer$Mid").nestedIn "com.Outer"),
    .program ((ProgramType.named "com.Outer$Mid$In").nestedIn "com.Outer$Mid"),
    .program ((ProgramType.named "com.Left").nestedIn "com.Right"),
    .program ((ProgramType.named "com.Right").nestedIn "com.Left")]
  modules := []

/-- Those types that are not on the circle lead to earlier ones. -/
lemma Model.nestings_leads_lt {i j : TypeId} (hi : i < 5)
    (h : TransGen (Model.nestings.Leads true) i j) : j < i := by
  have hlinks : ∀ i < 5, ((Model.nestings.unnamed? i).bind (Model.nestings.link true)).all
      (·.outer < i) = true := by decide +kernel
  have hstep : ∀ i < 5, ∀ j, Model.nestings.Leads true i j → j < i := by
    rintro i hi j ⟨t, link, ht, hlink, rfl⟩
    have hlt := hlinks i hi
    rw [ht, Option.bind_some, hlink] at hlt
    simpa using hlt
  induction h with
  | single hleads => exact hstep i hi _ hleads
  | tail _ hleads ih => exact (hstep _ (ih.trans hi) _ hleads).trans ih

/-- Three of these types are visited, and all of them get names. -/
theorem nested_names_are_contained_nestings :
    let s := Renaming.start .nestings .plain (.short true)
    let last := s.afterAll ([4, 1, 5].map (.rename true))
    (∀ i ∈ [1, 2, 3, 4, 5, 6], ∃ name, last.model.Bears i name) ∧
      last.IsOutermost s.model 2 ∧
      (∀ i ∈ [1, 3, 4], last.IsContained s.model true i) ∧
      TransGen (s.model.Leads true) 5 5 ∧ last.OneIsOutermost s.model true 5 ∧
      last.model.types.map KnownType.currentName =
        #["lib.Base", "lib.Base$a", "a.a", "a.a$a", "a.a$a$a", "a.b$a", "a.b"] := by
  intro s last
  obtain ⟨hnamed, hplaced, -, hcircles⟩ :=
    nested_names_are_contained (Renaming.start .nestings .plain (.short true)) true [4, 1, 5]
  have hmid : s.model.Leads true 4 3 := ⟨_, ⟨3, false⟩, rfl, by decide +kernel, rfl⟩
  have houter : s.model.Leads true 3 2 := ⟨_, ⟨2, false⟩, rfl, by decide +kernel, rfl⟩
  have hright : s.model.Leads true 5 6 := ⟨_, ⟨6, false⟩, rfl, by decide +kernel, rfl⟩
  have hleft : s.model.Leads true 6 5 := ⟨_, ⟨5, false⟩, rfl, by decide +kernel, rfl⟩
  have hloop : TransGen (s.model.Leads true) 5 5 := .head hright (.single hleft)
  have hbears : ∀ i ∈ [1, 2, 3, 4, 5, 6], ∃ name, last.model.Bears i name := by
    simp only [List.forall_mem_cons]
    refine ⟨hnamed 1 (by simp) (by decide) 1 .refl, ?_, ?_, ?_, ?_, ?_, by simp⟩
    · exact hnamed 4 (by simp) (by decide) 2 (.tail (.single hmid) houter)
    · exact hnamed 4 (by simp) (by decide) 3 (.single hmid)
    · exact hnamed 4 (by simp) (by decide) 4 .refl
    · exact hnamed 5 (by simp) (by decide) 5 .refl
    · exact hnamed 5 (by simp) (by decide) 6 (.single hright)
  have hcontained : ∀ (i : TypeId) (t : ProgramType) (link : Link), i < 5 →
      i ∈ [1, 2, 3, 4, 5, 6] → s.model.unnamed? i = some t → s.model.link true t = some link →
      last.IsContained s.model true i := by
    intro i t link hlt hi ht hlink
    obtain ⟨name, hname⟩ := hbears i hi
    refine ((hplaced i t name ht hname).2 link hlink).resolve_right fun hcircle => ?_
    exact Nat.lt_irrefl i (Model.nestings_leads_lt hlt hcircle.1)
  refine ⟨hbears, ?_, ?_, hloop, hcircles 5 (by simp) 5 .refl hloop, by decide +kernel⟩
  · obtain ⟨name, hname⟩ := hbears 2 (by simp)
    exact (hplaced 2 _ name rfl hname).1 (by decide +kernel)
  · simp only [List.forall_mem_cons]
    refine ⟨?_, ?_, ?_, by simp⟩
    · exact hcontained 1 _ ⟨0, false⟩ (by decide) (by simp) rfl (by decide +kernel)
    · exact hcontained 3 _ ⟨2, false⟩ (by decide) (by simp) rfl (by decide +kernel)
    · exact hcontained 4 _ ⟨3, false⟩ (by decide) (by simp) rfl (by decide +kernel)

end Pseudonym
