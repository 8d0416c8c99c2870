import Pseudonym.Proofs.Renaming.Creations

/-!
# Created namespaces keep apart and keep their place

A namespace that is neither settled nor kept nor repackaged gets a prefix that is created for it.
Two things are said about such prefixes here, for every run.

They are all different, and different from whatever a settled type has taken
(`created_prefixes_are_distinct`).  This needs no condition on the words for segments: words with
dots may spell the same prefix below different parents, but then one of the two is passed over.

Each of them lies where it belongs (`created_prefix_lies_below`): one segment below the new prefix
of the namespace around it, or below the common prefix if namespaces are flattened.
-/

namespace Pseudonym

namespace Renaming

variable {s : Renaming} {outer newOuter : String}

/-- A request for a prefix creates it exactly if it has no record and is neither kept nor
repackaged, and then the answer is what was created. -/
lemma mem_created_namespacePrefix :
    (outer, newOuter) ∈ s.created (.namespacePrefix outer) ↔ s.registry.newPrefix? outer = none ∧
      s.registry.options.keepsPrefix outer = false ∧
      s.registry.options.repackageTarget? = none ∧
      newOuter = (s.registry.newPrefix outer).1 := by
  set r := s.registry with hr
  have hcreated : s.created (.namespacePrefix outer) = r.prefixesSince (r.newPrefix outer).2 := rfl
  rw [hcreated, Registry.mem_prefixesSince]
  constructor
  · rintro ⟨hunknown, hafter⟩
    obtain ⟨hunkept, hstays⟩ := (Registry.Extends.newPrefix r outer).created hunknown hafter
    have hagain := Registry.newPrefix_of_extends (.refl (r.newPrefix outer).2)
    rw [Registry.newPrefix_of_recorded hafter] at hagain
    exact ⟨hunknown, hunkept, hstays, congrArg Prod.fst hagain⟩
  · rintro ⟨hunknown, hunkept, hstays, rfl⟩
    refine ⟨hunknown, ?_⟩
    generalize hans : r.newPrefix outer = answer
    cases hans ▸ r.newPrefix_answers outer with
    | known hrecorded => exact nomatch hunknown.symm.trans hrecorded
    | kept _ hkept => exact nomatch hunkept.symm.trans hkept
    | repackaged _ _ hrepackages => exact nomatch hstays.symm.trans hrepackages
    | created =>
      rw [Registry.newPrefix?_createPrefix, if_pos rfl]
      rfl

end Renaming

/-- Created prefixes are distinct.  The prefixes that a run creates differ from each other and from
everything that a settled type has ever taken, the root included.  They are what the run leaves
recorded for namespaces without a record, and no other namespace has one of them. -/
theorem created_prefixes_are_distinct (m : Model) (o : NamingOptions)
    (memberSequence : Name.Sequence) (requests : List Request) :
    let start := Renaming.start m o memberSequence
    let last := start.afterAll requests
    ((start.createdAll requests).map Prod.snd).Nodup ∧
    (∀ outer newOuter, (outer, newOuter) ∈ start.createdAll requests →
      newOuter ≠ "" ∧ newOuter ∉ (o.seeds m.settledNames).map Prod.snd ∧
      ∀ other, last.registry.newPrefix? other = some newOuter → other = outer) ∧
    (∀ outer newOuter, (outer, newOuter) ∈ start.createdAll requests ↔
      start.registry.newPrefix? outer = none ∧
        last.registry.newPrefix? outer = some newOuter) ∧
    ∀ outer newOuter, (outer, newOuter) ∈ last.created (.namespacePrefix outer) ↔
      last.registry.newPrefix? outer = none ∧ o.keepsPrefix outer = false ∧
        o.repackageTarget? = none ∧ newOuter = (last.registry.newPrefix outer).1 := by
  intro start last
  have hrecords : start.registry.RecordsTaken :=
    Registry.recordsTaken_ofModel m o memberSequence
  have hsteps : Registry.Steps start.registry last.registry :=
    (start.afterAll_extends requests).registry
  have hoptions : last.registry.options = o := by
    rw [hsteps.extends.options]
    exact Registry.options_ofModel m o memberSequence
  refine ⟨Renaming.nodup_createdAll hrecords requests, fun outer newOuter hcreated => ?_,
    fun outer newOuter => start.mem_createdAll requests, fun outer newOuter => ?_⟩
  · obtain ⟨hbefore, hafter⟩ := (start.mem_createdAll requests).1 hcreated
    have hfree := hsteps.notMem_taken hbefore hafter
    have htaken := Registry.mem_taken_ofModel m o memberSequence newOuter
    refine ⟨fun hroot => hfree (htaken.2 (.inr hroot)), fun hseed => hfree (htaken.2 (.inl hseed)),
      fun other hother => ?_⟩
    exact hsteps.eq_of_created hrecords hbefore hafter hother
  · rw [Renaming.mem_created_namespacePrefix, hoptions]

example : (Renaming.start .empty .plain (.short true)).createdAll
    [.topLevel "com.example.Widget", .namespacePrefix "org."] =
      [("com.", "a."), ("com.example.", "a.a."), ("org.", "b.")] := by
  decide +kernel

/-- Created prefixes lie below the new prefix of the namespace around, or below the common prefix
under flattening, by one segment.  Neither the prefix nor the one it lies below changes later. -/
theorem created_prefix_lies_below (m : Model) (o : NamingOptions) (memberSequence : Name.Sequence)
    (requests : List Request) {outer newOuter : String}
    (hcreated : (outer, newOuter) ∈ (Renaming.start m o memberSequence).createdAll requests) :
    let last := (Renaming.start m o memberSequence).afterAll requests
    ∃ k segment, o.segmentSequence.nameAt? k = some segment ∧
      (∀ later, ((last.afterAll later).registry.newPrefix outer).1 = newOuter) ∧
      (∀ target, o.flatten = some target → newOuter = Name.prefixOf target ++ segment ++ ".") ∧
      (o.flatten = none → ∃ newParent, newOuter = newParent ++ segment ++ "." ∧
        ∀ later, ((last.afterAll later).registry.newPrefix (Name.parentPrefix outer)).1 =
          newParent) := by
  intro last
  set start := Renaming.start m o memberSequence with hstart
  obtain ⟨hbefore, hafter⟩ := (start.mem_createdAll requests).1 hcreated
  have hsteps : Registry.Steps start.registry last.registry :=
    (start.afterAll_extends requests).registry
  have hoptions : start.registry.options = o := Registry.options_ofModel m o memberSequence
  obtain ⟨newParent, k, segment, hparent, hentry, hname⟩ := hsteps.created_below hbefore hafter
  rw [hoptions] at hentry
  have hlater : ∀ later, last.registry.Extends (last.afterAll later).registry :=
    fun later => (last.afterAll_extends later).registry.extends
  refine ⟨k, segment, hentry, fun later => ?_, fun target hflatten => ?_, fun hflatten => ?_⟩
  · rw [Registry.newPrefix_of_recorded ((hlater later).recorded hafter)]
  · have htarget : last.registry.options.flattenTarget? = some (Name.prefixOf target) := by
      rw [hsteps.extends.options, hoptions, NamingOptions.flattenTarget?, hflatten]
      rfl
    rw [Registry.newParent_of_flatten htarget] at hparent
    obtain ⟨rfl, -⟩ := Prod.mk.inj hparent
    exact hname
  · have htarget : last.registry.options.flattenTarget? = none := by
      rw [hsteps.extends.options, hoptions, NamingOptions.flattenTarget?, hflatten]
      rfl
    have hroot : outer ≠ "" := Registry.ne_empty_of_unknown m o memberSequence hbefore
    rw [Registry.newParent_of_hierarchy hroot htarget] at hparent
    refine ⟨newParent, hname, fun later => ?_⟩
    have hextends : (last.registry.newPrefix (Name.parentPrefix outer)).2.Extends
        (last.afterAll later).registry := by
      rw [hparent]
      exact hlater later
    rw [Registry.newPrefix_of_extends hextends, hparent]

/-- Where `com` is a namespace of its own, `com.example` lies below its new prefix. -/
theorem created_prefix_lies_below_com :
    let start := Renaming.start .empty .plain (.short true)
    let requests := [.namespacePrefix "org.", .topLevel "com.example.Widget"]
    let last := start.afterAll requests
    ("com.example.", "b.a.") ∈ start.createdAll requests ∧
    ∃ k segment, NamingOptions.plain.segmentSequence.nameAt? k = some segment ∧
      (∀ later, ((last.afterAll later).registry.newPrefix "com.example.").1 = "b.a.") ∧
      (∀ target, NamingOptions.plain.flatten = some target →
        "b.a." = Name.prefixOf target ++ segment ++ ".") ∧
      (NamingOptions.plain.flatten = none → ∃ newParent, "b.a." = newParent ++ segment ++ "." ∧
        ∀ later, ((last.afterAll later).registry.newPrefix
          (Name.parentPrefix "com.example.")).1 = newParent) := by
  have hcreated : ("com.example.", "b.a.") ∈ (Renaming.start .empty .plain (.short true)).createdAll
      [.namespacePrefix "org.", .topLevel "com.example.Widget"] := by
    decide +kernel
  exact ⟨hcreated, created_prefix_lies_below .empty .plain (.short true)
    [.namespacePrefix "org.", .topLevel "com.example.Widget"] hcreated⟩

end Pseudonym
