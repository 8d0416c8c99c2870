import Pseudonym.Proofs.Naming.Seeding
import Pseudonym.Proofs.Renaming.Requests

/-!
# Kept prefixes and created ones

A created prefix differs from everything that is taken.  A kept prefix is not recorded and so not
taken, unless a settled type has taken it.  Therefore a prefix may be created that another namespace
keeps.

`kept_prefix_avoided_iff` says when this does not happen in a run: at no moment at which a prefix is
created may the kept one be the first that is free below the parent.  Where a settled type has taken
the kept prefix this is always so.
-/

namespace Pseudonym

namespace Registry

variable {r r' : Registry}

/-- In a run, some namespace is given a certain prefix exactly if at some moment a prefix is
created and that one is the first free below the parent. -/
theorem exists_given_iff (hcaught : r.CaughtUp) (h : Steps r r') (newOuter : String) :
    (∃ outer, r.newPrefix? outer = none ∧ r'.newPrefix? outer = some newOuter) ↔
      ∃ s outer newParent, Steps r s ∧ s.Creates outer newParent ∧
        Steps (s.createPrefix outer newParent).2 r' ∧ s.IsFirstFree newParent newOuter := by
  constructor
  · rintro ⟨outer, hbefore, hafter⟩
    obtain ⟨s, newParent, hs, hcreates, hrest, hfirst⟩ :=
      h.exists_isFirstFree hcaught hbefore hafter
    exact ⟨s, outer, newParent, hs, hcreates, hrest, hfirst⟩
  · rintro ⟨s, outer, newParent, hs, hcreates, hrest, hfirst⟩
    have hfresh := (freshPrefix_eq_iff (hcaught.steps hs)).2 hfirst
    refine ⟨outer, hs.extends.unknown hcreates.unknown, hrest.extends.recorded ?_⟩
    rw [newPrefix?_createPrefix, if_pos rfl, hfresh]

end Registry

/-- The options under which the namespaces that match one pattern keep their names. -/
def NamingOptions.keeping (pattern : String) : NamingOptions :=
  { NamingOptions.plain with keep := (Retention.Rules.parse [pattern]).toOption.getD .none }

/-- No namespace is given a prefix that another one keeps, exactly if the kept prefix is never the
first free one when a prefix is created.  A prefix that a seed has taken is never free. -/
theorem kept_prefix_avoided_iff (m : Model) (o : NamingOptions) (memberSequence : Name.Sequence)
    (requests : List Request) (kept : String)
    (hunknown : (Registry.ofModel m o memberSequence).newPrefix? kept = none)
    (hkept : o.keepsPrefix kept = true) :
    let first := (Renaming.start m o memberSequence).registry
    let last := ((Renaming.start m o memberSequence).afterAll requests).registry
    last.newPrefix kept = (kept, last) ∧
    ((∀ outer, first.newPrefix? outer = none → last.newPrefix? outer ≠ some kept) ↔
      ∀ r outer newParent, Registry.Steps first r → r.Creates outer newParent →
        Registry.Steps (r.createPrefix outer newParent).2 last →
        ¬ r.IsFirstFree newParent kept) ∧
    (kept ∈ (o.seeds m.settledNames).map Prod.snd → ∀ outer, first.newPrefix? outer = none →
      last.newPrefix? outer ≠ some kept) := by
  intro first last
  have hsteps : Registry.Steps first last :=
    (Renaming.afterAll_extends (Renaming.start m o memberSequence) requests).registry
  have hcaught : first.CaughtUp := Registry.caughtUp_ofModel m o memberSequence
  have hgiven := Registry.exists_given_iff hcaught hsteps kept
  refine ⟨?_, ?_, ?_⟩
  · have hkept' : first.options.keepsPrefix kept = true := by
      rwa [show first.options = o from Registry.options_ofModel m o memberSequence]
    refine Registry.newPrefix_of_kept ?_ (hsteps.extends.options ▸ hkept')
    exact hsteps.extends.newPrefix?_eq_none hunknown (.inl hkept')
  · constructor
    · intro havoided r outer newParent hr hcreates hrest hfirst
      obtain ⟨other, hbefore, hafter⟩ := hgiven.2 ⟨r, outer, newParent, hr, hcreates, hrest, hfirst⟩
      exact havoided other hbefore hafter
    · intro hnever outer hbefore hafter
      obtain ⟨r, other, newParent, hr, hcreates, hrest, hfirst⟩ := hgiven.1 ⟨outer, hbefore, hafter⟩
      exact hnever r other newParent hr hcreates hrest hfirst
  · intro hseeded outer hbefore hafter
    have htaken : kept ∈ first.taken :=
      (Registry.mem_taken_ofModel m o memberSequence kept).2 (.inl hseeded)
    obtain ⟨r, -, -, hr, -, -, -, -, -, -, hfree, -⟩ := hgiven.1 ⟨outer, hbefore, hafter⟩
    exact hfree (hr.extends.taken htaken)

/-- Where `a` is kept and has been asked for, the next namespace still gets the prefix `a.`. -/
theorem kept_prefix_given_to_other :
    let o := NamingOptions.keeping "a"
    let first := (Renaming.start .empty o (.short true)).registry
    let last := ((Renaming.start .empty o (.short true)).afterAll
      [.namespacePrefix "a.", .namespacePrefix "x."]).registry
    first.newPrefix? "a." = none ∧ o.keepsPrefix "a." = true ∧ first.newPrefix? "x." = none ∧
      (last.newPrefix "a.").1 = "a." ∧ last.newPrefix? "x." = some "a." := by
  decide +kernel

/-- What is kept as `com` is no matter to a run in which one namespace is created. -/
theorem kept_prefix_avoided_iff_com :
    let first := (Renaming.start .empty (.keeping "com") (.short true)).registry
    let last := ((Renaming.start .empty (.keeping "com") (.short true)).afterAll
      [.namespacePrefix "com.", .namespacePrefix "x."]).registry
    last.newPrefix "com." = ("com.", last) ∧
    ((∀ outer, first.newPrefix? outer = none → last.newPrefix? outer ≠ some "com.") ↔
      ∀ r outer newParent, Registry.Steps first r → r.Creates outer newParent →
        Registry.Steps (r.createPrefix outer newParent).2 last →
        ¬ r.IsFirstFree newParent "com.") ∧
    ("com." ∈ ((NamingOptions.keeping "com").seeds Model.empty.settledNames).map Prod.snd →
      ∀ outer, first.newPrefix? outer = none → last.newPrefix? outer ≠ some "com.") :=
  kept_prefix_avoided_iff .empty (.keeping "com") (.short true)
    [.namespacePrefix "com.", .namespacePrefix "x."] "com." (by decide +kernel) (by decide +kernel)

end Pseudonym
