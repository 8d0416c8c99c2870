import Pseudonym.Proofs.Naming.Seeding
import Pseudonym.Proofs.Renaming.Requests

/-!
# Created prefixes

In the course of a run the registry records new prefixes for more and more namespaces, and what it
records it has created: kept and repackaged prefixes are answered without a record.  `createdAll`
lists the prefixes that a list of requests creates, each with the namespace prefix that it is for.

What carries the module is that everything recorded is taken (`RecordsTaken`).  It holds of the
registry of a model and is kept by every step.  A created prefix was not taken before, so it differs
from everything recorded until then (`Steps.notMem_taken`); and it is taken from then on, so nothing
that is created later is the same (`Steps.eq_of_created`).
-/

namespace Pseudonym

namespace Registry

variable {r r' : Registry} {outer newOuter : String}

/-! ## What is recorded is taken -/

/-- Whether every new prefix that is recorded is taken. -/
def RecordsTaken (r : Registry) : Prop :=
  ∀ ⦃outer newOuter⦄, r.newPrefix? outer = some newOuter → newOuter ∈ r.taken

theorem recordsTaken_ofModel (m : Model) (o : NamingOptions) (memberSequence : Name.Sequence) :
    (ofModel m o memberSequence).RecordsTaken := by
  intro outer newOuter h
  rw [newPrefix?_ofModel] at h
  rw [mem_taken_ofModel]
  rcases Option.or_eq_some_iff.1 h with hseed | ⟨-, hroot⟩
  · have hmem := NamingOptions.mem_seeds_of_lastSeed hseed
    exact .inl (List.mem_map_of_mem hmem)
  · obtain ⟨-, heq⟩ := Option.ite_none_right_eq_some.1 hroot
    exact .inr (Option.some.inj heq).symm

lemma RecordsTaken.step (h : r.RecordsTaken) (hstep : Step r r') : r'.RecordsTaken := by
  cases hstep with
  | @created other newParent creates =>
    intro outer newOuter hrecorded
    rw [newPrefix?_createPrefix] at hrecorded
    rw [mem_taken_createPrefix]
    split at hrecorded
    · exact .inl (Option.some.inj hrecorded)
    · exact .inr (h hrecorded)
  | ordinary => exact h
  | numbered => exact h
  | members => exact h

theorem RecordsTaken.steps (h : r.RecordsTaken) (hsteps : Steps r r') : r'.RecordsTaken := by
  induction hsteps with
  | refl => exact h
  | tail _ hstep ih => exact ih.step hstep

/-! ## What is created is new -/

/-- What is created in a run had not been taken at its beginning. -/
theorem Steps.notMem_taken (h : Steps r r') (hbefore : r.newPrefix? outer = none)
    (hafter : r'.newPrefix? outer = some newOuter) : newOuter ∉ r.taken := by
  obtain ⟨s, newParent, hs, -, -, rfl⟩ := h.exists_creates hbefore hafter
  intro htaken
  exact s.freshPrefix_notMem_taken newParent (hs.extends.taken htaken)

/-- What is created in a run is recorded for one namespace prefix only. -/
theorem Steps.eq_of_created (hrecords : r.RecordsTaken) (h : Steps r r')
    (hbefore : r.newPrefix? outer = none) (hafter : r'.newPrefix? outer = some newOuter)
    {other : String} (hother : r'.newPrefix? other = some newOuter) : other = outer := by
  obtain ⟨s, newParent, hs, -, hrest, rfl⟩ := h.exists_creates hbefore hafter
  have htaken : s.freshPrefix newParent ∈ (s.createPrefix outer newParent).2.taken := by
    rw [mem_taken_createPrefix]
    exact .inl rfl
  -- Nothing created after this moment can be the same, for the prefix is taken then.
  cases hcreated : (s.createPrefix outer newParent).2.newPrefix? other with
  | none => exact absurd htaken (hrest.notMem_taken hcreated hother)
  | some earlier =>
    have hsame : earlier = s.freshPrefix newParent := by
      have hlater := hrest.extends.recorded hcreated
      rw [hother] at hlater
      exact (Option.some.inj hlater).symm
    by_contra hne
    rw [newPrefix?_createPrefix, if_neg (Ne.symm hne), hsame] at hcreated
    -- Nor anything that was recorded before, for it was not taken.
    have hearlier := hrecords.steps hs hcreated
    exact s.freshPrefix_notMem_taken newParent hearlier

/-- What is created lies below the new parent, of which nothing changes any more. -/
theorem Steps.created_below (h : Steps r r') (hbefore : r.newPrefix? outer = none)
    (hafter : r'.newPrefix? outer = some newOuter) :
    ∃ newParent k segment, r'.newParent outer = (newParent, r') ∧
      r.options.segmentSequence.nameAt? k = some segment ∧
      newOuter = newParent ++ segment ++ "." := by
  obtain ⟨s, newParent, hs, hcreates, hrest, rfl⟩ := h.exists_creates hbefore hafter
  have hentry := (s.isFirst_segmentDraw newParent).entry
  rw [hs.extends.options] at hentry
  refine ⟨newParent, _, _, ?_, hentry, rfl⟩
  have hcreated := Extends.createPrefix hcreates.unknown hcreates.unkept hcreates.stays newParent
  have hextends : (s.newParent outer).2.Extends r' := by
    rw [hcreates.parent]
    exact hcreated.trans hrest.extends
  rw [newParent_of_extends hextends, hcreates.parent]

/-! ## The prefixes created in the meantime -/

/-- The namespace prefixes that have a record in a later registry and had none in this one, each
with its new prefix. -/
def prefixesSince (r r' : Registry) : List (String × String) :=
  r'.prefixes.toList.filter fun pair => (r.newPrefix? pair.1).isNone

@[simp] lemma mem_prefixesSince :
    (outer, newOuter) ∈ r.prefixesSince r' ↔
      r.newPrefix? outer = none ∧ r'.newPrefix? outer = some newOuter := by
  rw [prefixesSince, List.mem_filter, Std.ExtTreeMap.mem_toList_iff_getElem?_eq_some,
    Option.isNone_iff_eq_none]
  exact and_comm

lemma nodup_prefixesSince (hrecords : r.RecordsTaken) (h : Steps r r') :
    ((r.prefixesSince r').map Prod.snd).Nodup := by
  have hkeys : (r.prefixesSince r').Pairwise fun a b => a.1 ≠ b.1 := by
    refine (Std.ExtTreeMap.distinct_keys_toList.imp fun hdistinct heq => ?_).filter _
    exact hdistinct (Std.LawfulEqCmp.compare_eq_iff_eq.2 heq)
  rw [List.Nodup, List.pairwise_map]
  refine hkeys.imp_of_mem ?_
  rintro ⟨outer, newOuter⟩ ⟨other, newOther⟩ hmem hmem' hne rfl
  obtain ⟨hbefore, hafter⟩ := mem_prefixesSince.1 hmem
  obtain ⟨-, hother⟩ := mem_prefixesSince.1 hmem'
  exact hne (h.eq_of_created hrecords hbefore hafter hother).symm

end Registry

namespace Renaming

variable {s : Renaming} {outer newOuter : String}

/-- The prefixes that a request creates, each after the namespace prefix that it is for. -/
def created (s : Renaming) (request : Request) : List (String × String) :=
  s.registry.prefixesSince (s.after request).registry

/-- The prefixes that a list of requests creates, in order. -/
def createdAll (s : Renaming) : List Request → List (String × String)
  | [] => []
  | request :: rest => s.created request ++ (s.after request).createdAll rest

/-- What a run creates is what it leaves recorded for namespace prefixes without a record. -/
theorem mem_createdAll (s : Renaming) (requests : List Request) :
    (outer, newOuter) ∈ s.createdAll requests ↔ s.registry.newPrefix? outer = none ∧
      (s.afterAll requests).registry.newPrefix? outer = some newOuter := by
  induction requests generalizing s with
  | nil =>
    constructor
    · exact fun h => absurd h List.not_mem_nil
    · rintro ⟨hbefore, hafter⟩
      exact nomatch hbefore.symm.trans hafter
  | cons request rest ih =>
    rw [createdAll, List.mem_append, created, Registry.mem_prefixesSince, ih, afterAll_cons]
    have hfirst := (s.after_extends request).registry.extends
    have hrest := ((s.after request).afterAll_extends rest).registry.extends
    constructor
    · rintro (⟨hbefore, hcreated⟩ | ⟨hbefore, hafter⟩)
      · exact ⟨hbefore, hrest.recorded hcreated⟩
      · exact ⟨hfirst.unknown hbefore, hafter⟩
    · rintro ⟨hbefore, hafter⟩
      cases hcreated : (s.after request).registry.newPrefix? outer with
      | none => exact .inr ⟨rfl, hafter⟩
      | some first =>
        have hsame := (hrest.recorded hcreated).symm.trans hafter
        exact .inl ⟨hbefore, hsame⟩

/-- All prefixes that are created in the course of a run are different. -/
theorem nodup_createdAll (hrecords : s.registry.RecordsTaken) (requests : List Request) :
    ((s.createdAll requests).map Prod.snd).Nodup := by
  induction requests generalizing s with
  | nil => exact List.nodup_nil
  | cons request rest ih =>
    have hfirst := (s.after_extends request).registry
    have hrecords' := hrecords.steps hfirst
    rw [createdAll, List.map_append, List.nodup_append]
    refine ⟨Registry.nodup_prefixesSince hrecords hfirst, ih hrecords', ?_⟩
    intro x hx y hy
    obtain ⟨⟨outer, newOuter⟩, hmem, rfl⟩ := List.mem_map.1 hx
    obtain ⟨⟨other, newOther⟩, hmem', rfl⟩ := List.mem_map.1 hy
    rintro rfl
    -- What the first request creates is taken when the others are made.
    have htaken := hrecords' (Registry.mem_prefixesSince.1 hmem).2
    obtain ⟨hbefore, hafter⟩ := ((s.after request).mem_createdAll rest).1 hmem'
    have hrest := ((s.after request).afterAll_extends rest).registry
    exact hrest.notMem_taken hbefore hafter htaken

end Renaming
end Pseudonym
