import Mathlib.Data.List.Basic
import Mathlib.Data.List.Perm.Subperm
import Mathlib.Logic.Relation
import Pseudonym.Proofs.Model.Growth

/-!
# The way outwards

Every type without a name leads to at most one other type, the one that its link goes to.  The way
outwards follows these links, and `chain_isChain` says what it looks like when it has ended.  Seen
from the outside, each stage after the first is linked to the one before it (`Inwards`), and for the
first there are three possibilities: it has no link, its link goes to a settled type, or its link
goes back to a later stage.

In the last case the way has run into a circle.  The stages from the first to the one that it leads
to are all of the circle, because a circle cannot be left: each type leads to only one
(`Leads.eq`).

That the way ends at all is because no type is passed twice.  `Walks` is the way as it goes without
a bound, and `walkEnds` says that it ends from wherever it begins.
-/

namespace Pseudonym
namespace Model

open Relation (TransGen ReflTransGen)

variable {m : Model} {adaptMetadata : Bool} {id i j k outer : TypeId} {t : ProgramType}

/-! ## Links -/

lemma lookup_eq_some {name : String} (h : m.lookup name = some id) :
    ∃ d, m.types[id]? = some d ∧ d.name = name := by
  obtain ⟨hid, hname, -⟩ := Array.findIdx?_eq_some_iff_getElem.1 h
  exact ⟨_, Array.getElem?_eq_getElem hid, by simpa using hname⟩

/-- A link goes to a type of another name. -/
lemma link_eq_some {link : Link} (h : m.link adaptMetadata t = some link) :
    ∃ d, m.types[link.outer]? = some d ∧ d.name ≠ t.name := by
  obtain ⟨outer, -, hlink⟩ := List.exists_of_findSome?_eq_some h
  unfold linkTo at hlink
  split at hlink
  · exact nomatch hlink
  · rename_i hne
    obtain ⟨found, hfound, rfl⟩ := Option.map_eq_some_iff.1 hlink
    obtain ⟨d, hd, rfl⟩ := lookup_eq_some hfound
    exact ⟨d, hd, hne⟩

/-- Metadata has no influence on whether there is a link. -/
lemma link_eq_none_congr (t : ProgramType) (adaptMetadata adaptMetadata' : Bool) :
    m.link adaptMetadata t = none ↔ m.link adaptMetadata' t = none := by
  have hlinkTo : ∀ outer,
      m.linkTo adaptMetadata t outer = none ↔ m.linkTo adaptMetadata' t outer = none := by
    intro outer
    unfold linkTo
    split
    · exact Iff.rfl
    · rw [Option.map_eq_none_iff, Option.map_eq_none_iff]
  rw [link, link, List.findSome?_eq_none_iff, List.findSome?_eq_none_iff]
  exact forall₂_congr fun outer _ => hlinkTo outer

/-- Whether a type has no name and is to be named inside another one. -/
def Leads (m : Model) (adaptMetadata : Bool) (i j : TypeId) : Prop :=
  ∃ t link, m.unnamed? i = some t ∧ m.link adaptMetadata t = some link ∧ link.outer = j

lemma Leads.eq (hj : m.Leads adaptMetadata i j) (hk : m.Leads adaptMetadata i k) : j = k := by
  obtain ⟨t, link, ht, hlink, rfl⟩ := hj
  obtain ⟨t', link', ht', hlink', rfl⟩ := hk
  rw [ht] at ht'
  obtain rfl := Option.some.inj ht'
  rw [hlink] at hlink'
  rw [Option.some.inj hlink']

lemma Leads.ne (h : m.Leads adaptMetadata i j) : i ≠ j := by
  rintro rfl
  obtain ⟨t, link, ht, hlink, rfl⟩ := h
  obtain ⟨d, hd, hne⟩ := link_eq_some hlink
  rw [(unnamed?_eq_some_iff.1 ht).1] at hd
  obtain rfl := Option.some.inj hd
  exact hne rfl

/-- From everywhere on a circle the way leads back. -/
theorem transGen_of_loop (hloop : TransGen (m.Leads adaptMetadata) i i)
    (h : ReflTransGen (m.Leads adaptMetadata) i j) : TransGen (m.Leads adaptMetadata) j i := by
  induction h with
  | refl => exact hloop
  | @tail j k _ hstep ih =>
    obtain ⟨k', hstep', hback⟩ := TransGen.head'_iff.1 ih
    obtain rfl := hstep.eq hstep'
    rcases Relation.reflTransGen_iff_eq_or_transGen.1 hback with rfl | hback
    · exact hloop
    · exact hback

/-! ## Stages -/

/-- Whether stages lead inwards from a type, each to be named inside the one before. -/
inductive Inwards (m : Model) (adaptMetadata : Bool) : TypeId → List Stage → Prop where
  | nil (outer : TypeId) : Inwards m adaptMetadata outer []
  | cons {outer id : TypeId} {t : ProgramType} {numbered : Bool} {rest : List Stage}
      (hunnamed : m.unnamed? id = some t)
      (hlink : m.link adaptMetadata t = some ⟨outer, numbered⟩)
      (hrest : Inwards m adaptMetadata id rest) :
      Inwards m adaptMetadata outer (⟨id, t.name, some ⟨outer, numbered⟩⟩ :: rest)

/-- The stages of a way that has ended, from the outermost on. -/
inductive IsChain (m : Model) (adaptMetadata : Bool) : List Stage → Prop where
  | outermost {id : TypeId} {t : ProgramType} {rest : List Stage}
      (hunnamed : m.unnamed? id = some t) (hlink : m.link adaptMetadata t = none)
      (hrest : m.Inwards adaptMetadata id rest) :
      IsChain m adaptMetadata (⟨id, t.name, none⟩ :: rest)
  | settled {id : TypeId} {t : ProgramType} {link : Link} {rest : List Stage}
      (hunnamed : m.unnamed? id = some t) (hlink : m.link adaptMetadata t = some link)
      (hsettled : m.unnamed? link.outer = none) (hrest : m.Inwards adaptMetadata id rest) :
      IsChain m adaptMetadata (⟨id, t.name, some link⟩ :: rest)
  | circular {id : TypeId} {t : ProgramType} {link : Link} {rest : List Stage}
      (hunnamed : m.unnamed? id = some t) (hlink : m.link adaptMetadata t = some link)
      (hback : link.outer ∈ rest.map Stage.id) (hrest : m.Inwards adaptMetadata id rest) :
      IsChain m adaptMetadata (⟨id, t.name, none⟩ :: rest)

namespace Inwards

variable {stages : List Stage}

lemma unnamed (h : m.Inwards adaptMetadata outer stages) (hid : id ∈ stages.map Stage.id) :
    ∃ t, m.unnamed? id = some t := by
  induction h with
  | nil => simp at hid
  | cons hunnamed _ _ ih =>
    rcases List.mem_cons.1 hid with rfl | hrest
    · exact ⟨_, hunnamed⟩
    · exact ih hrest

/-- Every stage leads to the type around all of them in the end. -/
lemma transGen (h : m.Inwards adaptMetadata outer stages) (hid : id ∈ stages.map Stage.id) :
    TransGen (m.Leads adaptMetadata) id outer := by
  induction h with
  | nil => simp at hid
  | cons hunnamed hlink _ ih =>
    have hstep : m.Leads adaptMetadata _ _ := ⟨_, _, hunnamed, hlink, rfl⟩
    rcases List.mem_cons.1 hid with rfl | hrest
    · exact .single hstep
    · exact (ih hrest).tail hstep

/-- Where a stage leads to is among them, or is the type around them. -/
lemma mem_of_leads (h : m.Inwards adaptMetadata outer stages) (hi : i ∈ stages.map Stage.id)
    (hstep : m.Leads adaptMetadata i j) : j ∈ outer :: stages.map Stage.id := by
  induction h with
  | nil => simp at hi
  | cons hunnamed hlink _ ih =>
    rcases List.mem_cons.1 hi with rfl | hrest
    · have hj := hstep.eq ⟨_, _, hunnamed, hlink, rfl⟩
      exact hj ▸ List.mem_cons_self
    · exact List.mem_cons_of_mem _ (ih hrest)

/-- A stage that leads inwards is to be named as the link of its type says. -/
lemma link_eq {stage : Stage} (h : m.Inwards adaptMetadata outer stages)
    (hstage : stage ∈ stages) :
    ∃ t link, m.unnamed? stage.id = some t ∧ stage.name = t.name ∧
      m.link adaptMetadata t = some link ∧ stage.link = some link := by
  induction h with
  | nil => exact absurd hstage List.not_mem_nil
  | cons hunnamed hlink _ ih =>
    rcases List.mem_cons.1 hstage with rfl | hrest
    · exact ⟨_, _, hunnamed, rfl, hlink, rfl⟩
    · exact ih hrest

end Inwards

/-- Every stage of a chain is to be named as the link of its type says, or as if it had none. -/
lemma IsChain.link_eq_or {stages : List Stage} {stage : Stage} (h : m.IsChain adaptMetadata stages)
    (hstage : stage ∈ stages) : ∃ t, m.unnamed? stage.id = some t ∧ stage.name = t.name ∧
      (stage.link = m.link adaptMetadata t ∨ stage.link = none) := by
  have hinner : ∀ {id : TypeId} {rest : List Stage}, m.Inwards adaptMetadata id rest →
      stage ∈ rest → ∃ t, m.unnamed? stage.id = some t ∧ stage.name = t.name ∧
        (stage.link = m.link adaptMetadata t ∨ stage.link = none) := by
    intro id rest hrest hmem
    obtain ⟨t, link, ht, hname, hlink, hstageLink⟩ := hrest.link_eq hmem
    exact ⟨t, ht, hname, .inl (hstageLink.trans hlink.symm)⟩
  cases h with
  | outermost hunnamed hlink hrest =>
    rcases List.mem_cons.1 hstage with rfl | hmem
    · exact ⟨_, hunnamed, rfl, .inr rfl⟩
    · exact hinner hrest hmem
  | settled hunnamed hlink _ hrest =>
    rcases List.mem_cons.1 hstage with rfl | hmem
    · exact ⟨_, hunnamed, rfl, .inl hlink.symm⟩
    · exact hinner hrest hmem
  | circular hunnamed _ _ hrest =>
    rcases List.mem_cons.1 hstage with rfl | hmem
    · exact ⟨_, hunnamed, rfl, .inr rfl⟩
    · exact hinner hrest hmem

/-! ## The way ends -/

lemma lt_size_of_unnamed (h : m.unnamed? id = some t) : id < m.size :=
  (Array.getElem?_eq_some_iff.1 (unnamed?_eq_some_iff.1 h).1).1

/-- There are no more different types without names than there are types. -/
lemma length_le_size {ids : List TypeId} (hnodup : ids.Nodup)
    (hunnamed : ∀ id ∈ ids, ∃ t, m.unnamed? id = some t) : ids.length ≤ m.size := by
  have hsub : ids ⊆ m.ids := by
    intro id hid
    obtain ⟨t, ht⟩ := hunnamed id hid
    exact List.mem_range.2 (lt_size_of_unnamed ht)
  have hle := (hnodup.subperm hsub).length_le
  rwa [Model.ids, List.length_range] at hle

/-- What the way outwards comes to that has no bound.  `inside` holds the stages that have been
passed.  The way goes on as long as the link of a type leads to a type that has no name and has not
been passed. -/
inductive Walks (m : Model) (adaptMetadata : Bool) :
    List Stage → TypeId → ProgramType → List Stage → Prop where
  | outermost {inside : List Stage} {id : TypeId} {t : ProgramType}
      (hlink : m.link adaptMetadata t = none) :
      Walks m adaptMetadata inside id t (⟨id, t.name, none⟩ :: inside)
  | settled {inside : List Stage} {id : TypeId} {t : ProgramType} {link : Link}
      (hlink : m.link adaptMetadata t = some link) (hsettled : m.unnamed? link.outer = none) :
      Walks m adaptMetadata inside id t (⟨id, t.name, some link⟩ :: inside)
  | circular {inside : List Stage} {id : TypeId} {t outer : ProgramType} {link : Link}
      (hlink : m.link adaptMetadata t = some link) (houter : m.unnamed? link.outer = some outer)
      (hback : link.outer ∈ id :: inside.map Stage.id) :
      Walks m adaptMetadata inside id t (⟨id, t.name, none⟩ :: inside)
  | onwards {inside stages : List Stage} {id : TypeId} {t outer : ProgramType} {link : Link}
      (hlink : m.link adaptMetadata t = some link) (houter : m.unnamed? link.outer = some outer)
      (hfresh : link.outer ∉ id :: inside.map Stage.id)
      (hrest : Walks m adaptMetadata (⟨id, t.name, some link⟩ :: inside) link.outer outer stages) :
      Walks m adaptMetadata inside id t stages

namespace Walks

variable {inside stages stages' : List Stage}

lemma unique (h : m.Walks adaptMetadata inside id t stages)
    (h' : m.Walks adaptMetadata inside id t stages') : stages = stages' := by
  induction h with
  | outermost hlink =>
    cases h' with
    | outermost => rfl
    | settled hlink' | circular hlink' | onwards hlink' => exact nomatch hlink.symm.trans hlink'
  | settled hlink hsettled =>
    cases h' with
    | outermost hlink' => exact nomatch hlink.symm.trans hlink'
    | settled hlink' => rw [Option.some.inj (hlink.symm.trans hlink')]
    | circular hlink' houter | onwards hlink' houter =>
      rw [← Option.some.inj (hlink.symm.trans hlink')] at houter
      exact nomatch hsettled.symm.trans houter
  | circular hlink houter hback =>
    cases h' with
    | outermost => rfl
    | settled hlink' hsettled =>
      rw [← Option.some.inj (hlink.symm.trans hlink')] at hsettled
      exact nomatch hsettled.symm.trans houter
    | circular => rfl
    | onwards hlink' _ hfresh =>
      rw [← Option.some.inj (hlink.symm.trans hlink')] at hfresh
      exact absurd hback hfresh
  | onwards hlink houter hfresh _ ih =>
    cases h' with
    | outermost hlink' => exact nomatch hlink.symm.trans hlink'
    | settled hlink' hsettled =>
      rw [← Option.some.inj (hlink.symm.trans hlink')] at hsettled
      exact nomatch hsettled.symm.trans houter
    | circular hlink' _ hback =>
      rw [← Option.some.inj (hlink.symm.trans hlink')] at hback
      exact absurd hback hfresh
    | onwards hlink' houter' _ hrest' =>
      obtain rfl := Option.some.inj (hlink.symm.trans hlink')
      obtain rfl := Option.some.inj (houter.symm.trans houter')
      exact ih hrest'

/-- A way that leads outwards from stages that lead inwards ends in a chain.  No type is passed
twice, and none that has been passed is left out. -/
theorem isChain (h : m.Walks adaptMetadata inside id t stages) (hunnamed : m.unnamed? id = some t)
    (hinside : m.Inwards adaptMetadata id inside) (hnodup : (id :: inside.map Stage.id).Nodup) :
    m.IsChain adaptMetadata stages ∧ (stages.map Stage.id).Nodup ∧
      ∀ i ∈ id :: inside.map Stage.id, i ∈ stages.map Stage.id := by
  induction h with
  | outermost hlink => exact ⟨.outermost hunnamed hlink hinside, hnodup, fun _ hi => hi⟩
  | settled hlink hsettled =>
    exact ⟨.settled hunnamed hlink hsettled hinside, hnodup, fun _ hi => hi⟩
  | circular hlink _ hback =>
    have hleads : m.Leads adaptMetadata _ _ := ⟨_, _, hunnamed, hlink, rfl⟩
    rcases List.mem_cons.1 hback with hself | hback
    · exact absurd hself.symm hleads.ne
    · exact ⟨.circular hunnamed hlink hback hinside, hnodup, fun _ hi => hi⟩
  | onwards hlink houter hfresh _ ih =>
    obtain ⟨hchain, hids, hmem⟩ := ih houter (.cons hunnamed hlink hinside)
      (List.nodup_cons.2 ⟨hfresh, hnodup⟩)
    exact ⟨hchain, hids, fun i hi => hmem i (List.mem_cons_of_mem _ hi)⟩

end Walks

lemma any_id_iff {stages : List Stage} :
    stages.any (·.id = outer) = true ↔ outer ∈ stages.map Stage.id := by
  rw [List.any_eq_true, List.mem_map]
  simp only [decide_eq_true_eq]

/-- The fuel is enough to pass all types, so the way goes on until it ends. -/
theorem outwards_walks {fuel : Nat} {inside : List Stage} (hunnamed : m.unnamed? id = some t)
    (hinside : ∀ i ∈ inside.map Stage.id, ∃ t, m.unnamed? i = some t)
    (hnodup : (id :: inside.map Stage.id).Nodup) (hfuel : m.size ≤ fuel + inside.length) :
    m.Walks adaptMetadata inside id t (m.outwards adaptMetadata fuel inside id t) := by
  induction fuel generalizing inside id t with
  | zero =>
    -- More types would have been passed than there are.
    have hle := length_le_size hnodup (List.forall_mem_cons.2 ⟨⟨t, hunnamed⟩, hinside⟩)
    rw [List.length_cons, List.length_map] at hle
    omega
  | succ fuel ih =>
    rw [outwards]
    split
    · rename_i hlink
      exact .outermost hlink
    · rename_i link hlink
      split
      · rename_i hsettled
        exact .settled hlink hsettled
      · rename_i outer houter
        dsimp only
        split
        · rename_i hback
          exact .circular hlink houter (any_id_iff.1 hback)
        · rename_i hfresh
          have hnew : link.outer ∉ id :: inside.map Stage.id := fun hmem =>
            hfresh (any_id_iff.2 hmem)
          refine .onwards hlink houter hnew (ih houter ?_ (List.nodup_cons.2 ⟨hnew, hnodup⟩) ?_)
          · exact List.forall_mem_cons.2 ⟨⟨t, hunnamed⟩, hinside⟩
          · rw [List.length_cons]
            omega

theorem chain_walks (adaptMetadata : Bool) (h : m.unnamed? id = some t) :
    m.Walks adaptMetadata [] id t (m.chain adaptMetadata id t) :=
  outwards_walks h (fun _ hi => absurd hi List.not_mem_nil) (by simp)
    (Nat.le_refl m.size)

/-- The types to be named with a type without a name. -/
theorem chain_isChain (adaptMetadata : Bool) (h : m.unnamed? id = some t) :
    m.IsChain adaptMetadata (m.chain adaptMetadata id t) ∧
      ((m.chain adaptMetadata id t).map Stage.id).Nodup ∧
      id ∈ (m.chain adaptMetadata id t).map Stage.id := by
  obtain ⟨hchain, hids, hmem⟩ :=
    (chain_walks adaptMetadata h).isChain h (.nil id) (by simp)
  exact ⟨hchain, hids, hmem id List.mem_cons_self⟩

/-- Whether the way outwards from a type ends, and meets nothing that is not there.  It is no longer
than there are types, and its stages are types of the program without a name. -/
structure WalkEnds (m : Model) (adaptMetadata : Bool) (id : TypeId) (t : ProgramType) : Prop where
  walks_iff : ∀ stages, m.Walks adaptMetadata [] id t stages ↔ stages = m.chain adaptMetadata id t
  length_le : (m.chain adaptMetadata id t).length ≤ m.size
  unnamed : ∀ stage ∈ m.chain adaptMetadata id t, ∃ t, m.unnamed? stage.id = some t
  id_lt : ∀ stage ∈ m.chain adaptMetadata id t, stage.id < m.size
  outer_lt : ∀ stage ∈ m.chain adaptMetadata id t, ∀ link, stage.link = some link →
    link.outer < m.size

/-- From every type without a name, whatever the records say, the way outwards ends. -/
theorem walkEnds (adaptMetadata : Bool) (h : m.unnamed? id = some t) :
    m.WalkEnds adaptMetadata id t := by
  have hwalks := chain_walks adaptMetadata h
  obtain ⟨hchain, hnodup, -⟩ := chain_isChain adaptMetadata h
  have hunnamed : ∀ stage ∈ m.chain adaptMetadata id t, ∃ t, m.unnamed? stage.id = some t := by
    intro stage hstage
    obtain ⟨t', ht', -⟩ := hchain.link_eq_or hstage
    exact ⟨t', ht'⟩
  refine ⟨?_, ?_, hunnamed, ?_, ?_⟩
  · intro stages
    constructor
    · intro hwalks'
      exact hwalks'.unique hwalks
    · rintro rfl
      exact hwalks
  · rw [← List.length_map (f := Stage.id)]
    refine length_le_size hnodup fun i hi => ?_
    obtain ⟨stage, hstage, rfl⟩ := List.mem_map.1 hi
    exact hunnamed stage hstage
  · intro stage hstage
    obtain ⟨t', ht'⟩ := hunnamed stage hstage
    exact lt_size_of_unnamed ht'
  · intro stage hstage link hlink
    obtain ⟨t', -, -, hsame | hnone⟩ := hchain.link_eq_or hstage
    · obtain ⟨d, hd, -⟩ := link_eq_some (hsame.symm.trans hlink)
      exact (Array.getElem?_eq_some_iff.1 hd).1
    · exact nomatch hnone.symm.trans hlink

end Model
end Pseudonym
