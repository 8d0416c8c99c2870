import Mathlib.Logic.Relation
import Pseudonym.Naming.Scopes
import Pseudonym.Proofs.Naming.Extension

/-!
# What a registry does, step by step

Whatever is asked of a registry comes down to steps of four kinds: a prefix is created below a
parent that is already decided, an ordinary or a numbered type name is given, or the member sequence
and its scope change.  Each request takes finitely many of these (`newPrefix_steps` and what follows
it), so an invariant of registries has four cases to check and then holds in the course of every
run.

The module does this for the positions of the sequences (`CaughtUp`).  A position is only a
shortcut: every candidate before it is of no use any more.  So a segment that is drawn from its
position is the first that is free at all (`freshPrefix_eq_iff`).
-/

namespace Pseudonym
namespace Registry

open Relation (ReflTransGen)
open Name (numeral)

variable {r r' : Registry} {outer newParent : String}

/-! ## Steps -/

/-- Whether a registry is about to create a prefix below a new parent. -/
structure Creates (r : Registry) (outer newParent : String) : Prop where
  unknown : r.newPrefix? outer = none
  unkept : r.options.keepsPrefix outer = false
  stays : r.options.repackageTarget? = none
  parent : r.newParent outer = (newParent, r)

/-- The registry at a position of the member sequence, with a scope that is open or not. -/
def atMember (r : Registry) (position : Nat) (scope : Option Scope) : Registry :=
  { r with memberPosition := position, currentScope := scope }

@[simp] lemma newPrefix?_atMember (r : Registry) (position : Nat) (scope : Option Scope)
    (outer : String) : (r.atMember position scope).newPrefix? outer = r.newPrefix? outer := rfl

/-- One change of a registry. -/
inductive Step : Registry → Registry → Prop where
  | created {r : Registry} {outer newParent : String} (creates : r.Creates outer newParent) :
      Step r (r.createPrefix outer newParent).2
  | ordinary (r : Registry) (outer : String) : Step r (r.ordinaryName outer).2
  | numbered (r : Registry) (outer : String) : Step r (r.numberedName outer).2
  | members (r : Registry) (position : Nat) (scope : Option Scope) :
      Step r (r.atMember position scope)

/-- Any number of changes of a registry. -/
abbrev Steps : Registry → Registry → Prop := ReflTransGen Step

lemma Step.extends (h : Step r r') : r.Extends r' := by
  cases h with
  | created creates => exact .createPrefix creates.unknown creates.unkept creates.stays _
  | ordinary outer => exact .ordinaryName r outer
  | numbered outer => exact .numberedName r outer
  | members position scope => exact ⟨rfl, id, fun h h' => by simp [h] at h', id, id⟩

theorem Steps.extends (h : Steps r r') : r.Extends r' := by
  induction h with
  | refl => exact .refl r
  | tail _ step ih => exact ih.trans step.extends

/-! ## Requests -/

theorem newPrefix_steps (r : Registry) (outer : String) : Steps r (r.newPrefix outer).2 := by
  refine newPrefix_induction .refl (fun outer unknown unkept stays hparent => ?_) outer
  have hextends := Steps.extends hparent
  refine hparent.tail (.created ⟨?_, ?_, ?_, newParent_of_extends (.refl _)⟩)
  · rw [newPrefix?_newParent, unknown]
  · rw [hextends.options, unkept]
  · rw [hextends.options, stays]

theorem nameTopLevel_steps (r : Registry) (oldName : String) :
    Steps r (r.nameTopLevel oldName).2 :=
  (r.newPrefix_steps _).tail (.ordinary _ _)

theorem nameNested_steps (r : Registry) (enclosing : String) :
    Steps r (r.nameNested enclosing).2 :=
  .single (.ordinary _ _)

theorem nameNumbered_steps (r : Registry) (enclosing : String) :
    Steps r (r.nameNumbered enclosing).2 :=
  .single (.numbered _ _)

theorem nameMember_steps (r : Registry) (used : Std.ExtTreeSet String) :
    Steps r (r.nameMember used).2 :=
  .single (.members r _ r.currentScope)

theorem enterScope_steps {scope : Scope} (h : r.enterScope scope = .ok r') : Steps r r' := by
  unfold enterScope at h
  split at h
  · exact nomatch h
  · obtain rfl := Except.ok.inj h
    exact .single (.members r 0 (some scope))

theorem leaveScope_steps {scope : Scope} (h : r.leaveScope scope = .ok r') : Steps r r' := by
  unfold leaveScope at h
  split at h
  · obtain rfl := Except.ok.inj h
    exact .single (.members r r.memberPosition none)
  · exact nomatch h

theorem nextInScope_steps {scope : Scope} {name : String}
    (h : r.nextInScope scope = .ok (name, r')) : Steps r r' := by
  unfold nextInScope at h
  split at h
  · obtain ⟨-, rfl⟩ := Prod.mk.inj (Except.ok.inj h)
    exact .single (.members r _ r.currentScope)
  · exact nomatch h

/-! ## Creations in the course of a run -/

/-- A prefix that is new among the recorded ones was created at some moment, below a parent that was
decided then, and what it got then it still has. -/
theorem Steps.exists_creates {newOuter : String} (h : Steps r r')
    (hbefore : r.newPrefix? outer = none) (hafter : r'.newPrefix? outer = some newOuter) :
    ∃ s newParent, Steps r s ∧ s.Creates outer newParent ∧
      Steps (s.createPrefix outer newParent).2 r' ∧ newOuter = s.freshPrefix newParent := by
  induction h with
  | refl => simp [hbefore] at hafter
  | @tail mid last hsteps step ih =>
    cases hmid : mid.newPrefix? outer with
    | some midOuter =>
      have hsame : midOuter = newOuter := by
        have hlast := step.extends.recorded hmid
        rw [hafter] at hlast
        exact (Option.some.inj hlast).symm
      subst hsame
      obtain ⟨s, newParent, hs, hcreates, hrest, hfresh⟩ := ih hmid
      exact ⟨s, newParent, hs, hcreates, hrest.tail step, hfresh⟩
    | none =>
      cases step with
      | @created other newParent creates =>
        rw [newPrefix?_createPrefix] at hafter
        split at hafter
        · subst other
          exact ⟨mid, newParent, hsteps, creates, .refl, (Option.some.inj hafter).symm⟩
        · simp [hmid] at hafter
      | ordinary => simp [hmid] at hafter
      | numbered => simp [hmid] at hafter
      | members => simp [hmid] at hafter

/-! ## Positions -/

/-- Every candidate before a position is of no use: its prefix is taken, or its name reserved. -/
structure CaughtUp (r : Registry) : Prop where
  segments : ∀ {newParent k segment}, k < r.segmentPositions.getD newParent 0 →
    r.options.segmentSequence.nameAt? k = some segment → newParent ++ segment ++ "." ∈ r.taken
  types : ∀ {outer k name}, k < r.typePositions.getD outer 0 →
    r.options.typeSequence.nameAt? k = some name → r.isReserved (outer ++ name) = true
  numerals : ∀ {outer k}, k < r.numeralPositions.getD outer 0 →
    r.isReserved (outer ++ numeral k) = true

lemma lt_getD_insert {positions : Positions} {key other : String} {next k : Nat}
    (h : k < (positions.insert key next).getD other 0) :
    key = other ∧ k < next ∨ k < positions.getD other 0 := by
  rw [Std.ExtTreeMap.getD_insert] at h
  split at h <;> rename_i hkey
  · exact .inl ⟨Std.LawfulEqCmp.eq_of_compare hkey, h⟩
  · exact .inr h

namespace CaughtUp

/-- A drawn segment is the first that is free, whatever the position the draw began at. -/
lemma isFirst_segmentDraw (h : r.CaughtUp) (newParent : String) :
    r.options.segmentSequence.IsFirst
      (fun segment => !r.taken.contains (newParent ++ segment ++ ".")) 0
      (r.segmentDraw newParent) :=
  (r.isFirst_segmentDraw newParent).from_zero fun k hk segment hentry => by
    rw [Bool.not_eq_false', Std.ExtTreeSet.contains_iff_mem]
    exact h.segments hk hentry

lemma isFirst_drawTypeName (h : r.CaughtUp) (outer : String) :
    r.options.typeSequence.IsFirst (fun name => !r.isReserved (outer ++ name)) 0
      (r.drawTypeName r.options.typeSequence outer (r.typePositions.getD outer 0)) :=
  (r.isFirst_drawTypeName outer _).from_zero fun k hk name hentry => by
    rw [Bool.not_eq_false']
    exact h.types hk hentry

lemma isFirst_drawTypeName_numerals (h : r.CaughtUp) (outer : String) :
    Name.Sequence.IsFirst .numerals (fun name => !r.isReserved (outer ++ name)) 0
      (r.drawTypeName .numerals outer (r.numeralPositions.getD outer 0)) :=
  (r.isFirst_drawTypeName_numerals outer _).from_zero fun k hk name hentry => by
    obtain rfl := Option.some.inj hentry
    rw [Bool.not_eq_false']
    exact h.numerals hk

lemma createPrefix (h : r.CaughtUp) (outer newParent : String) :
    (r.createPrefix outer newParent).2.CaughtUp where
  segments := by
    intro other k segment hk hentry
    rw [mem_taken_createPrefix]
    rcases lt_getD_insert hk with ⟨rfl, hlt⟩ | hlt
    · rcases (h.isFirst_segmentDraw newParent).refused_or_eq hlt hentry with hrefused | rfl
      · exact .inr (by simpa using hrefused)
      · exact .inl rfl
    · exact .inr (h.segments hlt hentry)
  types := h.types
  numerals := h.numerals

lemma ordinaryName (h : r.CaughtUp) (outer : String) : (r.ordinaryName outer).2.CaughtUp where
  segments := h.segments
  types := by
    intro other k name hk hentry
    rcases lt_getD_insert hk with ⟨rfl, hlt⟩ | hlt
    · rcases (h.isFirst_drawTypeName outer).refused_or_eq hlt hentry with hrefused | rfl
      · exact (Extends.ordinaryName r outer).isReserved (by simpa using hrefused)
      · exact r.isReserved_ordinaryName outer
    · exact (Extends.ordinaryName r outer).isReserved (h.types hlt hentry)
  numerals hk := (Extends.ordinaryName r outer).isReserved (h.numerals hk)

lemma numberedName (h : r.CaughtUp) (outer : String) : (r.numberedName outer).2.CaughtUp where
  segments := h.segments
  types hk hentry := (Extends.numberedName r outer).isReserved (h.types hk hentry)
  numerals := by
    intro other k hk
    rcases lt_getD_insert hk with ⟨rfl, hlt⟩ | hlt
    · rcases (h.isFirst_drawTypeName_numerals outer).refused_or_eq hlt rfl with hrefused | heq
      · rw [Bool.not_eq_false'] at hrefused
        exact (Extends.numberedName r outer).isReserved hrefused
      · rw [numeral, heq]
        exact r.isReserved_numberedName outer
    · exact (Extends.numberedName r outer).isReserved (h.numerals hlt)

lemma step (h : r.CaughtUp) (hstep : Step r r') : r'.CaughtUp := by
  cases hstep with
  | created => exact h.createPrefix _ _
  | ordinary => exact h.ordinaryName _
  | numbered => exact h.numberedName _
  | members => exact ⟨h.segments, h.types, h.numerals⟩

theorem steps (h : r.CaughtUp) (hsteps : Steps r r') : r'.CaughtUp := by
  induction hsteps with
  | refl => exact h
  | tail _ hstep ih => exact ih.step hstep

end CaughtUp

/-! ## The first free prefix -/

/-- Whether a prefix is the first below a new parent that no namespace was given. -/
def IsFirstFree (r : Registry) (newParent newOuter : String) : Prop :=
  ∃ k segment, r.options.segmentSequence.nameAt? k = some segment ∧
    newOuter = newParent ++ segment ++ "." ∧ newOuter ∉ r.taken ∧
    ∀ j < k, ∀ other, r.options.segmentSequence.nameAt? j = some other →
      newParent ++ other ++ "." ∈ r.taken

/-- A fresh prefix is the first free one. -/
theorem freshPrefix_eq_iff (h : r.CaughtUp) {newOuter : String} :
    r.freshPrefix newParent = newOuter ↔ r.IsFirstFree newParent newOuter := by
  have hfirst := h.isFirst_segmentDraw newParent
  have hrefused : ∀ j < (r.segmentDraw newParent).next - 1, ∀ other,
      r.options.segmentSequence.nameAt? j = some other → newParent ++ other ++ "." ∈ r.taken :=
    fun j hj other hother => by simpa using hfirst.refused j (Nat.zero_le j) hj other hother
  constructor
  · rintro rfl
    exact ⟨_, _, hfirst.entry, rfl, r.freshPrefix_notMem_taken newParent, hrefused⟩
  · rintro ⟨k, segment, hentry, rfl, hfree, hbefore⟩
    have hpass : (!r.taken.contains (newParent ++ segment ++ ".")) = true := by
      rw [Bool.not_eq_true']
      exact Name.Sequence.contains_eq_false_iff.2 hfree
    obtain ⟨-, rfl⟩ := hfirst.eq_of_entry hentry hpass
      fun j hj other hother => by simpa using hbefore j hj other hother
    rfl

/-- A prefix that is new among the recorded ones was the first free one when it was created. -/
theorem Steps.exists_isFirstFree {newOuter : String} (hcaught : r.CaughtUp) (h : Steps r r')
    (hbefore : r.newPrefix? outer = none) (hafter : r'.newPrefix? outer = some newOuter) :
    ∃ s newParent, Steps r s ∧ s.Creates outer newParent ∧
      Steps (s.createPrefix outer newParent).2 r' ∧ s.IsFirstFree newParent newOuter := by
  obtain ⟨s, newParent, hs, hcreates, hrest, hfresh⟩ := h.exists_creates hbefore hafter
  have hfirst := (freshPrefix_eq_iff (hcaught.steps hs)).1 hfresh.symm
  exact ⟨s, newParent, hs, hcreates, hrest, hfirst⟩

end Registry
end Pseudonym
