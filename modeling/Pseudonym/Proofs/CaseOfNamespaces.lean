import Pseudonym.Proofs.Name.Folds
import Pseudonym.Proofs.RecordedNamespaces

/-!
# Namespaces that differ in case alone

A type name is reserved by its fold.  A namespace prefix is taken as it is, so a created prefix
differs from those of the other namespaces but may have the fold of one of them, also where names
of mixed case are not allowed.

`created_namespaces_differ_iff` says when this does not happen in a run: whenever a prefix is
created, the first that is free must not differ in case alone from what another namespace has by
then.  It is enough to look at these moments because of two namespaces the one whose prefix is
created is there first, or is created while the other is there.

No run goes wrong as long as capitals are kept out: out of the words for segments, the namespaces to
flatten under and to keep, and the namespaces of the settled types.  Then no namespace has a capital
in its prefix (`NoCapitals.steps`), and folding does nothing to it.
-/

namespace Pseudonym

/-! ## Names without capitals -/

namespace Name

/-- Whether a name has a capital. -/
def hasCapital (name : String) : Bool := name.toList.any Unicode.isUppercase

lemma fold_of_not_hasCapital {mixedCase : Bool} {name : String} (h : hasCapital name = false) :
    fold mixedCase name = name := by
  rw [hasCapital] at h
  simp [fold, h]

@[simp] lemma hasCapital_append (name other : String) :
    hasCapital (name ++ other) = (hasCapital name || hasCapital other) := by
  simp [hasCapital]

@[simp] lemma hasCapital_dot : hasCapital "." = false := by decide

@[simp] lemma hasCapital_empty : hasCapital "" = false := rfl

@[simp] lemma hasCapital_short (k : Nat) : hasCapital (short false k) = false :=
  List.any_eq_false.2 fun _ hc => by simp [(isSmall_of_mem_short hc).not_uppercase]

lemma hasCapital_prefixOf {target : String} (h : hasCapital target = false) :
    hasCapital (prefixOf target) = false := by
  rw [prefixOf]
  split
  · exact h
  · simp [h]

end Name

open Name (hasCapital)

namespace NamingOptions

/-- Whether two prefixes are different and names are compared in a form that makes them equal. -/
def DifferInCase (o : NamingOptions) (newOuter newOther : String) : Prop :=
  newOuter ≠ newOther ∧ Name.fold o.mixedCase newOuter = Name.fold o.mixedCase newOther

instance (o : NamingOptions) (newOuter newOther : String) :
    Decidable (o.DifferInCase newOuter newOther) :=
  inferInstanceAs (Decidable (_ ∧ _))

/-- Whether options bring no capitals into the namespaces of a model. -/
structure AvoidsCapitals (o : NamingOptions) (m : Model) : Prop where
  words : ∀ list, o.namespaceWords = some list → ∀ word ∈ list.words, hasCapital word = false
  flatten : ∀ target, o.flatten = some target → hasCapital target = false
  kept : ∀ outer, o.keepsPrefix outer = true → hasCapital outer = false
  seeds : ∀ pair ∈ o.seeds m.settledNames, hasCapital pair.2 = false

variable {o : NamingOptions} {m : Model}

lemma DifferInCase.symm {newOuter newOther : String} (h : o.DifferInCase newOuter newOther) :
    o.DifferInCase newOther newOuter :=
  ⟨h.1.symm, h.2.symm⟩

lemma AvoidsCapitals.nameAt? (h : o.AvoidsCapitals m) (hcase : o.mixedCase = false) {k : Nat}
    {segment : String} (hentry : o.segmentSequence.nameAt? k = some segment) :
    hasCapital segment = false := by
  rw [segmentSequence, hcase] at hentry
  unfold Name.Sequence.withWords at hentry
  split at hentry
  · obtain rfl := Option.some.inj hentry
    exact Name.hasCapital_short k
  · rename_i list hlist
    rcases Name.Sequence.mem_or_nameAt?_of_words hentry with hword | ⟨j, hj⟩
    · exact h.words list hlist segment hword
    · obtain rfl := Option.some.inj hj
      exact Name.hasCapital_short j

end NamingOptions

namespace Registry

variable {r r' : Registry} {outer other newOuter newOther newParent : String}

/-! ## Prefixes without capitals -/

/-- Whether a registry has no capitals in the prefixes on record, and its options bring none in. -/
structure NoCapitals (r : Registry) (m : Model) : Prop where
  smallOnly : r.options.mixedCase = false
  options : r.options.AvoidsCapitals m
  recorded : ∀ ⦃outer newOuter⦄, r.newPrefix? outer = some newOuter → hasCapital newOuter = false

namespace NoCapitals

variable {m : Model}

/-- Unless types are repackaged, no namespace has a capital in its prefix. -/
lemma hasCapital_newPrefix (h : r.NoCapitals m) (hstays : r.options.repackageTarget? = none)
    (hdecided : r.newPrefix outer = (newOuter, r)) : hasCapital newOuter = false := by
  rcases newPrefix?_of_decided hdecided with ⟨hrecorded, -⟩ | ⟨hunknown, -, hkept | hgoes⟩
  · exact h.recorded hrecorded
  · rw [newPrefix_of_kept hunknown hkept] at hdecided
    obtain ⟨rfl, -⟩ := Prod.mk.inj hdecided
    exact h.options.kept outer hkept
  · exact absurd hstays hgoes

lemma hasCapital_newParent (h : r.NoCapitals m) (hstays : r.options.repackageTarget? = none)
    (hparent : r.newParent outer = (newParent, r)) : hasCapital newParent = false := by
  cases htarget : r.options.flattenTarget? with
  | some target =>
    obtain ⟨name, hname, rfl⟩ := Option.map_eq_some_iff.1 htarget
    rw [newParent_of_flatten htarget] at hparent
    obtain ⟨rfl, -⟩ := Prod.mk.inj hparent
    exact Name.hasCapital_prefixOf (h.options.flatten name hname)
  | none =>
    by_cases hroot : outer = ""
    · rw [Registry.newParent, htarget, if_pos hroot] at hparent
      obtain ⟨rfl, -⟩ := Prod.mk.inj hparent
      exact Name.hasCapital_empty
    · rw [newParent_of_hierarchy hroot htarget] at hparent
      exact h.hasCapital_newPrefix hstays hparent

/-- A prefix that is created gets neither from its parent nor from its segment a capital. -/
lemma hasCapital_freshPrefix (h : r.NoCapitals m) (hcreates : r.Creates outer newParent) :
    hasCapital (r.freshPrefix newParent) = false := by
  have hparent := h.hasCapital_newParent hcreates.stays hcreates.parent
  have hsegment := h.options.nameAt? h.smallOnly (r.isFirst_segmentDraw newParent).entry
  simp [Registry.freshPrefix, hparent, hsegment]

lemma step (h : r.NoCapitals m) (hstep : Step r r') : r'.NoCapitals m := by
  have hoptions := hstep.extends.options
  refine ⟨hoptions ▸ h.smallOnly, hoptions ▸ h.options, ?_⟩
  cases hstep with
  | @created other newParent creates =>
    intro outer newOuter hrecorded
    rw [newPrefix?_createPrefix] at hrecorded
    by_cases hother : other = outer
    · rw [if_pos hother] at hrecorded
      obtain rfl := Option.some.inj hrecorded
      exact h.hasCapital_freshPrefix creates
    · rw [if_neg hother] at hrecorded
      exact h.recorded hrecorded
  | ordinary => exact h.recorded
  | numbered => exact h.recorded
  | members => exact h.recorded

theorem steps (h : r.NoCapitals m) (hsteps : Steps r r') : r'.NoCapitals m := by
  induction hsteps with
  | refl => exact h
  | tail _ hstep ih => exact ih.step hstep

end NoCapitals

theorem noCapitals_ofModel {m : Model} {o : NamingOptions} (hcase : o.mixedCase = false)
    (ho : o.AvoidsCapitals m) (memberSequence : Name.Sequence) :
    (ofModel m o memberSequence).NoCapitals m := by
  refine ⟨?_, ?_, ?_⟩
  · rw [options_ofModel, hcase]
  · rwa [options_ofModel]
  · intro outer newOuter hrecorded
    rw [newPrefix?_ofModel] at hrecorded
    rcases Option.or_eq_some_iff.1 hrecorded with hseed | ⟨-, hroot⟩
    · exact ho.seeds _ (NamingOptions.mem_seeds_of_lastSeed hseed)
    · obtain ⟨-, hempty⟩ := Option.ite_none_right_eq_some.1 hroot
      obtain rfl := Option.some.inj hempty
      exact Name.hasCapital_empty

/-! ## Moments of creation -/

/-- Whether the prefixes that are created between two registries differ from those of all other
namespaces in more than case. -/
def CreatedDiffer (r r' : Registry) : Prop :=
  ∀ outer newOuter other newOther, r.newPrefix? outer = none → r'.newPrefix? outer = some newOuter →
    r'.newPrefix other = (newOther, r') → ¬ r.options.DifferInCase newOuter newOther

/-- Whether the prefix that is about to be created differs in case alone from what another namespace
has. -/
def AboutToClash (r : Registry) (outer newParent : String) : Prop :=
  r.Creates outer newParent ∧ ∃ newOuter other newOther, r.IsFirstFree newParent newOuter ∧
    r.newPrefix other = (newOther, r) ∧ r.options.DifferInCase newOuter newOther

/-- What a namespace has in the end it has had before, or it was created in the meantime. -/
lemma Steps.decided_or_created (h : Steps r r') (hstays : r.options.repackageTarget? = none)
    (hdecided : r'.newPrefix other = (newOther, r')) :
    r.newPrefix other = (newOther, r) ∨
      r.newPrefix? other = none ∧ r'.newPrefix? other = some newOther := by
  rcases newPrefix?_of_decided hdecided with ⟨hlater, -⟩ | ⟨hlater, hgoes⟩
  · cases hbefore : r.newPrefix? other with
    | none => exact .inr ⟨rfl, hlater⟩
    | some earlier =>
      obtain rfl := Option.some.inj ((h.extends.recorded hbefore).symm.trans hlater)
      exact .inl (newPrefix_of_recorded hbefore)
  · obtain ⟨hbefore, hkept | htarget⟩ := h.extends.goesUnrecorded_iff.1 hgoes
    · have hkept' : r'.options.keepsPrefix other = true := by
        rwa [h.extends.options]
      rw [newPrefix_of_kept hlater hkept'] at hdecided
      obtain ⟨rfl, -⟩ := Prod.mk.inj hdecided
      exact .inl (newPrefix_of_kept hbefore hkept)
    · exact absurd hstays htarget

/-- The prefixes created in a run differ from all others in more than case, exactly if at no moment
one is about to be created that does not. -/
theorem createdDiffer_iff (hcaught : r.CaughtUp) (h : Steps r r') :
    CreatedDiffer r r' ↔ ∀ s outer newParent, Steps r s →
      Steps (s.createPrefix outer newParent).2 r' → ¬ s.AboutToClash outer newParent := by
  constructor
  · rintro hdiffer s outer newParent hs hrest
      ⟨hcreates, newOuter, other, newOther, hfirst, hother, hclash⟩
    have hfresh := (freshPrefix_eq_iff (hcaught.steps hs)).2 hfirst
    have hcreated : (s.createPrefix outer newParent).2.newPrefix? outer = some newOuter := by
      rw [newPrefix?_createPrefix, if_pos rfl, hfresh]
    have hextends : (s.newPrefix other).2.Extends r' := by
      rw [hother]
      exact (Step.created hcreates).extends.trans hrest.extends
    have hlater := newPrefix_of_extends hextends
    rw [hother] at hlater
    rw [hs.extends.options] at hclash
    exact hdiffer outer newOuter other newOther (hs.extends.unknown hcreates.unknown)
      (hrest.extends.recorded hcreated) hlater hclash
  · intro hnever outer newOuter other newOther hbefore hafter hother hclash
    obtain ⟨s, newParent, hs, hcreates, hrest, hfirst⟩ :=
      h.exists_isFirstFree hcaught hbefore hafter
    have hmoment : Steps s (s.createPrefix outer newParent).2 := .single (.created hcreates)
    have hahead : Steps s r' := hmoment.trans hrest
    have hoptions := hs.extends.options
    rcases hahead.decided_or_created hcreates.stays hother with hearlier | ⟨hunknown, hcreated⟩
    · exact hnever s outer newParent hs hrest
        ⟨hcreates, newOuter, other, newOther, hfirst, hearlier, hoptions ▸ hclash⟩
    · -- The other namespace gets its prefix later, and by then this one has its own.
      have hne : outer ≠ other := by
        rintro rfl
        exact hclash.1 (Option.some.inj (hafter.symm.trans hcreated))
      have hstill : (s.createPrefix outer newParent).2.newPrefix? other = none := by
        rw [newPrefix?_createPrefix, if_neg hne, hunknown]
      obtain ⟨t, otherParent, ht, hcreates', hrest', hfirst'⟩ :=
        hrest.exists_isFirstFree (hcaught.steps (hs.trans hmoment)) hstill hcreated
      have hnow : t.newPrefix? outer = some newOuter := by
        have hgiven : (s.createPrefix outer newParent).2.newPrefix? outer =
            some (s.freshPrefix newParent) := by
          rw [newPrefix?_createPrefix, if_pos rfl]
        rw [(freshPrefix_eq_iff (hcaught.steps hs)).2 hfirst] at hgiven
        exact ht.extends.recorded hgiven
      have hreaches : Steps r t := (hs.trans hmoment).trans ht
      refine hnever t other otherParent hreaches hrest' ⟨hcreates', newOther, outer, newOuter,
        hfirst', newPrefix_of_recorded hnow, ?_⟩
      rw [hreaches.extends.options]
      exact hclash.symm

end Registry

/-! ## Whole runs -/

/-- Created namespaces differ from all others in more than case, exactly if at no moment of the run
the first free prefix differs in case alone from what another namespace has.  This is so if neither
the options nor the settled types bring capitals into namespaces. -/
theorem created_namespaces_differ_iff (m : Model) (o : NamingOptions)
    (memberSequence : Name.Sequence) (requests : List Request) :
    let first := (Renaming.start m o memberSequence).registry
    let last := ((Renaming.start m o memberSequence).afterAll requests).registry
    (Registry.CreatedDiffer first last ↔ ∀ r outer newParent, Registry.Steps first r →
      Registry.Steps (r.createPrefix outer newParent).2 last →
      ¬ r.AboutToClash outer newParent) ∧
    (o.AvoidsCapitals m → Registry.CreatedDiffer first last) := by
  intro first last
  have hsteps : Registry.Steps first last :=
    (Renaming.afterAll_extends (Renaming.start m o memberSequence) requests).registry
  have hoptions : first.options = o := Registry.options_ofModel m o memberSequence
  refine ⟨Registry.createdDiffer_iff (Registry.caughtUp_ofModel m o memberSequence) hsteps, ?_⟩
  intro havoids outer newOuter other newOther hbefore hafter hother ⟨hne, hfold⟩
  rw [hoptions] at hfold
  cases hcase : o.mixedCase with
  | true =>
    rw [hcase] at hfold
    exact hne (by simpa using hfold)
  | false =>
    have hsmall : last.NoCapitals m :=
      (Registry.noCapitals_ofModel hcase havoids memberSequence).steps hsteps
    have hstays : last.options.repackageTarget? = none := by
      rw [hsteps.extends.options]
      exact (hsteps.extends.created hbefore hafter).2
    have hnewOther := hsmall.hasCapital_newPrefix hstays hother
    rw [Name.fold_of_not_hasCapital (hsmall.recorded hafter),
      Name.fold_of_not_hasCapital hnewOther] at hfold
    exact hne hfold

/-- The options under which the segments of namespaces are taken from a list of words. -/
def NamingOptions.withSegments (words : List String) : NamingOptions :=
  { NamingOptions.plain with namespaceWords := some (.ofWords words) }

/-- Where `a` and `A` are words for segments, they become the prefixes of two namespaces. -/
theorem namespaces_in_both_cases :
    let o := NamingOptions.withSegments ["a", "A"]
    let first := (Renaming.start .empty o (.short false)).registry
    let last := ((Renaming.start .empty o (.short false)).afterAll
      [.namespacePrefix "x.", .namespacePrefix "y."]).registry
    o.mixedCase = false ∧ first.newPrefix? "x." = none ∧ first.newPrefix? "y." = none ∧
      last.newPrefix? "x." = some "a." ∧ last.newPrefix? "y." = some "A." ∧
      "a." ≠ "A." ∧ Name.fold false "a." = Name.fold false "A." := by
  decide +kernel

/-- A library type below `java.lang` and the word `core` bring no capitals in. -/
theorem created_namespaces_differ_iff_core :
    let m : Model := ⟨#[.library ⟨"java.lang.Object", none⟩], []⟩
    let o := NamingOptions.withSegments ["core"]
    let requests := [.namespacePrefix "x.", .topLevel "java.util.List", .namespacePrefix "y."]
    o.mixedCase = false ∧ o.AvoidsCapitals m ∧
      Registry.CreatedDiffer (Renaming.start m o (.short false)).registry
        ((Renaming.start m o (.short false)).afterAll requests).registry := by
  intro m o requests
  have havoids : o.AvoidsCapitals m := by
    refine ⟨?_, ?_, ?_, by decide +kernel⟩
    · intro list hlist
      obtain rfl := Option.some.inj hlist
      decide +kernel
    · intro target htarget
      exact absurd htarget.symm (Option.some_ne_none target)
    · intro outer hkept
      exact absurd hkept Bool.false_ne_true
  exact ⟨rfl, havoids, (created_namespaces_differ_iff m o (.short false) requests).2 havoids⟩

end Pseudonym
