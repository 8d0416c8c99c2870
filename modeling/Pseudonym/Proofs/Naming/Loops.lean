import Pseudonym.Proofs.Naming.Seeding
import Pseudonym.Proofs.Naming.Steps

/-!
# The loops of a registry end

A registry does three things over and over.  When a settled type is taken into account, the
namespaces around it are gone through from the inside out.  When a namespace is decided, the one
around it is decided first.  And every name is drawn candidate by candidate.

The definitions of the library end at once, since each of them goes along a list that is there
beforehand or counts down a bound.  This module states the three without lists and bounds, as
relations in which every turn leads to the next (`Climbs`, `Decides`, and `Draws` of sequences), and
shows that they end and where.  Going outwards ends because prefixes get shorter until the root is
reached, where something is recorded.  Draws end because candidates are distinct and only finitely
many of them are refused, at whatever moment of a run.
-/

namespace Pseudonym

namespace NamingOptions

/-! ## Settled types -/

/-- Going outwards from two prefixes, side by side, as long as neither of the next is the root. -/
inductive Climbs : String → String → List (String × String) → Prop where
  | last {outer newOuter : String}
      (root : Name.namespacePrefix outer = "" ∨ Name.namespacePrefix newOuter = "") :
      Climbs outer newOuter [(outer, newOuter)]
  | onwards {outer newOuter : String} {rest : List (String × String)}
      (level : Name.namespacePrefix outer ≠ "") (newLevel : Name.namespacePrefix newOuter ≠ "")
      (climbs : Climbs (Name.namespacePrefix outer) (Name.namespacePrefix newOuter) rest) :
      Climbs outer newOuter ((outer, newOuter) :: rest)

/-- The levels on both sides are gone through until one side is at the root. -/
lemma climbs_enclosingPrefixes (outer newOuter : String) :
    Climbs outer newOuter ((outer, newOuter) ::
      ((Name.enclosingPrefixes outer).zip (Name.enclosingPrefixes newOuter)).takeWhile
        fun (p, q) => p ≠ "" && q ≠ "") := by
  induction outer using Name.walk_induction generalizing newOuter with
  | root => exact .last (.inl Name.namespacePrefix_empty)
  | step outer hne ih =>
    rcases eq_or_ne newOuter "" with rfl | hnew
    · rw [Name.enclosingPrefixes_empty, List.zip_nil_right]
      exact .last (.inr Name.namespacePrefix_empty)
    rw [Name.enclosingPrefixes_eq hne, Name.enclosingPrefixes_eq hnew, List.zip_cons_cons]
    by_cases hroot : Name.namespacePrefix outer = "" ∨ Name.namespacePrefix newOuter = ""
    · rw [List.takeWhile_cons_of_neg (by simpa [imp_iff_not_or] using hroot)]
      exact .last hroot
    · obtain ⟨hlevel, hnewLevel⟩ := not_or.1 hroot
      rw [List.takeWhile_cons_of_pos (by simp [hlevel, hnewLevel])]
      exact .onwards hlevel hnewLevel (ih _)

/-- Where the namespaces around a settled type follow it, they are gone through from the inside
out. -/
theorem climbs_settledPrefixes {o : NamingOptions} (h : o.followsOutwards = true)
    (name newName : String) :
    Climbs (Name.namespacePrefix name) (Name.namespacePrefix newName)
      (o.settledPrefixes name newName) := by
  have hfollows : o.follows = true := by
    obtain ⟨hstays, -⟩ := Bool.and_eq_true_iff.1 h
    rw [follows, hstays, Bool.true_or]
  have hall := climbs_enclosingPrefixes (Name.namespacePrefix name) (Name.namespacePrefix newName)
  simpa only [settledPrefixes, hfollows, h, if_true] using hall

end NamingOptions

namespace Registry

variable {r : Registry} {outer : String} {answer answer' : String × Registry}

/-! ## Namespaces -/

/-- How a namespace prefix is decided: it is known, kept or repackaged, or it is created, below a
prefix that is the same for all or below the new prefix of its parent, which is decided first. -/
inductive Decides : Registry → String → String × Registry → Prop where
  | known {r : Registry} {outer newOuter : String} (recorded : r.newPrefix? outer = some newOuter) :
      Decides r outer (newOuter, r)
  | kept {r : Registry} {outer : String} (unknown : r.newPrefix? outer = none)
      (kept : r.options.keepsPrefix outer = true) : Decides r outer (outer, r)
  | repackaged {r : Registry} {outer target : String} (unknown : r.newPrefix? outer = none)
      (unkept : r.options.keepsPrefix outer = false)
      (repackages : r.options.repackageTarget? = some target) : Decides r outer (target, r)
  | flattened {r : Registry} {outer target : String} (unknown : r.newPrefix? outer = none)
      (unkept : r.options.keepsPrefix outer = false) (stays : r.options.repackageTarget? = none)
      (flattens : r.options.flattenTarget? = some target) :
      Decides r outer (r.createPrefix outer target)
  | inside {r : Registry} {outer : String} {parent : String × Registry}
      (unknown : r.newPrefix? outer = none) (unkept : r.options.keepsPrefix outer = false)
      (stays : r.options.repackageTarget? = none) (hierarchy : r.options.flattenTarget? = none)
      (decides : Decides r (Name.parentPrefix outer) parent) :
      Decides r outer (parent.2.createPrefix outer parent.1)

/-- At most one answer is reached. -/
lemma Decides.unique (h : r.Decides outer answer) (h' : r.Decides outer answer') :
    answer = answer' := by
  induction h generalizing answer' with
  | known recorded =>
    cases h' with
    | known recorded' => rw [Option.some.inj (recorded.symm.trans recorded')]
    | kept unknown | repackaged unknown | flattened unknown | inside unknown =>
      exact nomatch recorded.symm.trans unknown
  | kept unknown kept =>
    cases h' with
    | known recorded => exact nomatch recorded.symm.trans unknown
    | kept => rfl
    | repackaged _ unkept | flattened _ unkept | inside _ unkept =>
      exact nomatch kept.symm.trans unkept
  | repackaged unknown unkept repackages =>
    cases h' with
    | known recorded => exact nomatch recorded.symm.trans unknown
    | kept _ kept => exact nomatch kept.symm.trans unkept
    | repackaged _ _ repackages' => rw [Option.some.inj (repackages.symm.trans repackages')]
    | flattened _ _ stays | inside _ _ stays => exact nomatch repackages.symm.trans stays
  | flattened unknown unkept stays flattens =>
    cases h' with
    | known recorded => exact nomatch recorded.symm.trans unknown
    | kept _ kept => exact nomatch kept.symm.trans unkept
    | repackaged _ _ repackages => exact nomatch repackages.symm.trans stays
    | flattened _ _ _ flattens' => rw [Option.some.inj (flattens.symm.trans flattens')]
    | inside _ _ _ hierarchy => exact nomatch flattens.symm.trans hierarchy
  | inside unknown unkept stays hierarchy _ ih =>
    cases h' with
    | known recorded => exact nomatch recorded.symm.trans unknown
    | kept _ kept => exact nomatch kept.symm.trans unkept
    | repackaged _ _ repackages => exact nomatch repackages.symm.trans stays
    | flattened _ _ _ flattens => exact nomatch flattens.symm.trans hierarchy
    | inside _ _ _ _ decides' => rw [ih decides']

/-- Where the root has a record, every namespace prefix is decided: its parents get shorter until
the root is reached. -/
theorem decides_newPrefix (hroot : r.newPrefix? "" ≠ none) (outer : String) :
    r.Decides outer (r.newPrefix outer) := by
  induction outer using Name.outwards_induction with
  | step outer ih =>
    generalize hans : r.newPrefix outer = answer
    cases hans ▸ r.newPrefix_answers outer with
    | known recorded => exact .known recorded
    | kept unknown kept => exact .kept unknown kept
    | repackaged unknown unkept repackages => exact .repackaged unknown unkept repackages
    | created unknown unkept stays =>
      cases hflatten : r.options.flattenTarget? with
      | some target =>
        rw [newParent_of_flatten hflatten]
        exact .flattened unknown unkept stays hflatten
      | none =>
        have hne : outer ≠ "" := by
          rintro rfl
          exact hroot unknown
        have hparent : Name.parentPrefix outer = Name.namespacePrefix outer := by
          rw [Name.parentPrefix, if_neg hne]
        rw [newParent_of_hierarchy hne hflatten]
        exact .inside unknown unkept stays hflatten (hparent ▸ ih hne)

theorem decides_iff (hroot : r.newPrefix? "" ≠ none) :
    r.Decides outer answer ↔ answer = r.newPrefix outer := by
  constructor
  · intro hdecides
    exact hdecides.unique (decides_newPrefix hroot outer)
  · rintro rfl
    exact decides_newPrefix hroot outer

/-- In the course of a run the root always has a record. -/
lemma newPrefix?_root {m : Model} {o : NamingOptions} {memberSequence : Name.Sequence}
    (h : Steps (ofModel m o memberSequence) r) : r.newPrefix? "" ≠ none := by
  intro hunknown
  exact ne_empty_of_unknown m o memberSequence (h.extends.unknown hunknown) rfl

/-! ## Draws -/

/-- Whether every draw ends that a registry can make next: that of a segment below a new prefix,
that of an ordinary or a numbered type name below a prefix, that of a member name, and that of the
next name in a scope. -/
structure DrawsEnd (r : Registry) : Prop where
  segments : ∀ newParent, r.options.segmentSequence.DrawEnds
    (fun segment => !r.taken.contains (newParent ++ segment ++ ".")) r.taken.size
    (r.segmentPositions.getD newParent 0)
  types : ∀ outer, r.options.typeSequence.DrawEnds (fun name => !r.isReserved (outer ++ name))
    r.reserved.size (r.typePositions.getD outer 0)
  numerals : ∀ outer, Name.Sequence.numerals.DrawEnds (fun name => !r.isReserved (outer ++ name))
    r.reserved.size (r.numeralPositions.getD outer 0)
  members : ∀ used : Std.ExtTreeSet String,
    r.memberSequence.DrawEnds (fun name => !used.contains name) used.size 0
  metadata : r.memberSequence.DrawEnds (fun _ => true) 0 r.memberPosition

/-- Whatever a registry has given away, its draws end. -/
theorem drawsEnd (r : Registry) : r.DrawsEnd where
  segments newParent := (r.isFirst_segmentDraw newParent).drawEnds
  types outer := (r.isFirst_drawTypeName outer _).drawEnds
  numerals outer := (r.isFirst_drawTypeName_numerals outer _).drawEnds
  members used := (r.memberSequence.isFirst_draw id r.memberSequence.base_injective used 0).drawEnds
  metadata := r.memberSequence.drawEnds_next r.memberPosition

end Registry
end Pseudonym
