import Pseudonym.Proofs.Name.Prefixes
import Pseudonym.Proofs.Naming.FreshNames

/-!
# Registries grow

A registry never takes anything back.  `Extends r r'` collects what that means: the options are the
same, what is recorded, taken or reserved in `r` is so in `r'`, and the only prefixes that are new
among the recorded ones are of the kind that gets recorded, neither kept nor repackaged.

The main result is `newPrefix_of_extends`.  Once a namespace has been asked for, every later
registry gives the same answer and does not change.  It needs no induction: the answer is either
recorded, or decided by the options alone, in which case it is never going to be recorded.

A namespace is decided after the one around it.  The definition walks a list of ever shorter
prefixes.  The proofs go by the length of the prefix instead, and `newPrefix_answers` gives them the
four cases of an answer.
-/

namespace Pseudonym
namespace Registry

variable {r r' r'' : Registry} {outer : String}

/-! ## The cases of an answer -/

/-- The prefix under which a namespace prefix is to be created, decided first where necessary. -/
def newParent (r : Registry) (outer : String) : String × Registry :=
  match r.options.flattenTarget? with
  | some target => (target, r)
  | none => if outer = "" then ("", r) else r.newPrefix (Name.namespacePrefix outer)

lemma newParent_of_flatten {target : String} (h : r.options.flattenTarget? = some target) :
    r.newParent outer = (target, r) := by
  rw [newParent, h]

lemma newParent_of_hierarchy (hroot : outer ≠ "") (h : r.options.flattenTarget? = none) :
    r.newParent outer = r.newPrefix (Name.parentPrefix outer) := by
  simp only [newParent, h, Name.parentPrefix, if_neg hroot]

/-- How a registry can answer when it is asked for the new prefix of a namespace prefix. -/
inductive Answers (r : Registry) (outer : String) : String × Registry → Prop where
  | known {newOuter : String} (recorded : r.newPrefix? outer = some newOuter) :
      Answers r outer (newOuter, r)
  | kept (unknown : r.newPrefix? outer = none) (kept : r.options.keepsPrefix outer = true) :
      Answers r outer (outer, r)
  | repackaged {target : String} (unknown : r.newPrefix? outer = none)
      (unkept : r.options.keepsPrefix outer = false)
      (repackages : r.options.repackageTarget? = some target) : Answers r outer (target, r)
  | created (unknown : r.newPrefix? outer = none) (unkept : r.options.keepsPrefix outer = false)
      (stays : r.options.repackageTarget? = none) :
      Answers r outer ((r.newParent outer).2.createPrefix outer (r.newParent outer).1)

/-- The walk over the enclosing prefixes of a prefix asks for its parent next. -/
lemma resolve_enclosingPrefixes (r : Registry) (outer : String) :
    r.resolve (Name.enclosingPrefixes outer) =
      if outer = "" then ("", r) else r.newPrefix (Name.namespacePrefix outer) := by
  split
  · subst outer
    rfl
  · rename_i hne
    rw [Name.enclosingPrefixes_eq hne, newPrefix]

theorem newPrefix_answers (r : Registry) (outer : String) :
    r.Answers outer (r.newPrefix outer) := by
  rw [newPrefix, resolve]
  cases hknown : r.newPrefix? outer with
  | some newOuter => exact .known hknown
  | none =>
    cases hkeep : r.options.keepsPrefix outer with
    | true => exact .kept hknown hkeep
    | false =>
      cases hrepackage : r.options.repackageTarget? with
      | some target => exact .repackaged hknown hkeep hrepackage
      | none =>
        have hcreated := Answers.created hknown hkeep hrepackage
        cases hflatten : r.options.flattenTarget? with
        | some target => simpa [newParent, hflatten] using hcreated
        | none => simpa [newParent, hflatten, resolve_enclosingPrefixes] using hcreated

lemma newPrefix_of_recorded {newOuter : String} (h : r.newPrefix? outer = some newOuter) :
    r.newPrefix outer = (newOuter, r) := by
  simp [newPrefix, resolve, h]

lemma newPrefix_of_kept (hunknown : r.newPrefix? outer = none)
    (hkept : r.options.keepsPrefix outer = true) : r.newPrefix outer = (outer, r) := by
  simp [newPrefix, resolve, hunknown, hkept]

/-- The parent of a prefix is fixed beforehand, or it is the new prefix of the parent namespace. -/
lemma newParent_cases (r : Registry) (outer : String) :
    (r.newParent outer).2 = r ∨
      outer ≠ "" ∧ r.newParent outer = r.newPrefix (Name.namespacePrefix outer) := by
  unfold newParent
  split
  · exact .inl rfl
  · split
    · exact .inl rfl
    · exact .inr ⟨by assumption, rfl⟩

/-! ## Extensions -/

/-- Everything that a registry knows is known in a later one, which knows only more of what a
registry comes to know in the course of a pass. -/
structure Extends (r r' : Registry) : Prop where
  options : r'.options = r.options
  recorded : ∀ {outer newOuter}, r.newPrefix? outer = some newOuter →
    r'.newPrefix? outer = some newOuter
  created : ∀ {outer newOuter}, r.newPrefix? outer = none → r'.newPrefix? outer = some newOuter →
    r.options.keepsPrefix outer = false ∧ r.options.repackageTarget? = none
  taken : ∀ {newOuter}, newOuter ∈ r.taken → newOuter ∈ r'.taken
  reserved : ∀ {name}, name ∈ r.reserved → name ∈ r'.reserved

namespace Extends

lemma refl (r : Registry) : r.Extends r :=
  ⟨rfl, id, fun h h' => by simp [h] at h', id, id⟩

lemma trans (h : r.Extends r') (h' : r'.Extends r'') : r.Extends r'' where
  options := h'.options.trans h.options
  recorded hr := h'.recorded (h.recorded hr)
  created := by
    intro outer newOuter hnone hsome
    cases hmid : r'.newPrefix? outer with
    | some mid => exact h.created hnone hmid
    | none =>
      rw [← h.options]
      exact h'.created hmid hsome
  taken hr := h'.taken (h.taken hr)
  reserved hr := h'.reserved (h.reserved hr)

lemma fold_eq (h : r.Extends r') (name : String) : r'.fold name = r.fold name := by
  rw [fold, fold, h.options]

lemma isReserved (h : r.Extends r') {name : String} (hr : r.isReserved name = true) :
    r'.isReserved name = true := by
  rw [Registry.isReserved, h.fold_eq]
  exact Std.ExtTreeSet.contains_iff_mem.2 (h.reserved (Std.ExtTreeSet.contains_iff_mem.1 hr))

/-- What is not reserved later was not reserved before. -/
lemma not_isReserved (h : r.Extends r') {name : String} (hr : r'.isReserved name = false) :
    r.isReserved name = false := by
  cases hreserved : r.isReserved name with
  | false => rfl
  | true => exact (h.isReserved hreserved).symm.trans hr

/-- Names that an earlier registry does not tell apart are reserved together. -/
lemma isReserved_congr (h : r.Extends r') {name other : String}
    (hfold : r.fold name = r.fold other) : r'.isReserved name = r'.isReserved other := by
  rw [Registry.isReserved, Registry.isReserved, h.fold_eq, h.fold_eq, hfold]

/-- What has no record later had none before. -/
lemma unknown (h : r.Extends r') (hlater : r'.newPrefix? outer = none) :
    r.newPrefix? outer = none := by
  cases hknown : r.newPrefix? outer with
  | none => rfl
  | some newOuter => exact nomatch hlater.symm.trans (h.recorded hknown)

/-- A prefix that is kept or repackaged is not going to be recorded. -/
lemma newPrefix?_eq_none (h : r.Extends r') (hnone : r.newPrefix? outer = none)
    (hdecided : r.options.keepsPrefix outer = true ∨ r.options.repackageTarget? ≠ none) :
    r'.newPrefix? outer = none := by
  cases hsome : r'.newPrefix? outer with
  | none => rfl
  | some newOuter =>
    obtain ⟨hunkept, hstays⟩ := h.created hnone hsome
    rcases hdecided with hkept | hgoes
    · simp [hunkept] at hkept
    · exact absurd hstays hgoes

lemma ordinaryName (r : Registry) (outer : String) : r.Extends (r.ordinaryName outer).2 where
  options := rfl
  recorded := id
  created h h' := by simp [h] at h'
  taken := id
  reserved h := by simp [Std.ExtTreeSet.mem_insert, h]

lemma numberedName (r : Registry) (outer : String) : r.Extends (r.numberedName outer).2 where
  options := rfl
  recorded := id
  created h h' := by simp [h] at h'
  taken := id
  reserved h := by simp [Std.ExtTreeSet.mem_insert, h]

lemma createPrefix (unknown : r.newPrefix? outer = none)
    (unkept : r.options.keepsPrefix outer = false) (stays : r.options.repackageTarget? = none)
    (newParent : String) : r.Extends (r.createPrefix outer newParent).2 where
  options := rfl
  recorded := by
    intro other newOther h
    rw [newPrefix?_createPrefix, if_neg]
    · exact h
    · rintro rfl
      simp [unknown] at h
  created := by
    intro other newOther h h'
    rw [newPrefix?_createPrefix] at h'
    split at h'
    · subst other
      exact ⟨unkept, stays⟩
    · simp [h] at h'
  taken h := by simp [h]
  reserved := id

end Extends

/-! ## Answers extend the registry -/

/-- Deciding a prefix records no longer one. -/
lemma newPrefix?_newPrefix_of_length_lt {other : String} (h : outer.length < other.length) :
    (r.newPrefix outer).2.newPrefix? other = r.newPrefix? other := by
  induction outer using Name.outwards_induction with
  | step outer ih =>
    generalize hans : r.newPrefix outer = answer
    cases hans ▸ r.newPrefix_answers outer with
    | known | kept | repackaged => rfl
    | created =>
      have hne : outer ≠ other := fun heq => by simp [heq] at h
      rw [newPrefix?_createPrefix, if_neg hne]
      rcases r.newParent_cases outer with hs | ⟨hroot, hs⟩
      · rw [hs]
      · rw [hs]
        exact ih hroot ((Name.length_namespacePrefix_lt hroot).trans h)

/-- A prefix is still unknown when its parent has been decided. -/
lemma newPrefix?_newParent (r : Registry) (outer : String) :
    (r.newParent outer).2.newPrefix? outer = r.newPrefix? outer := by
  rcases r.newParent_cases outer with hs | ⟨hroot, hs⟩
  · rw [hs]
  · rw [hs]
    exact newPrefix?_newPrefix_of_length_lt (Name.length_namespacePrefix_lt hroot)

/-- What holds of a registry, and of one in which a prefix is created where it does after the parent
has been decided, holds after every answer. -/
theorem newPrefix_induction {motive : Registry → Prop} (start : motive r)
    (created : ∀ outer, r.newPrefix? outer = none → r.options.keepsPrefix outer = false →
      r.options.repackageTarget? = none → motive (r.newParent outer).2 →
      motive ((r.newParent outer).2.createPrefix outer (r.newParent outer).1).2)
    (outer : String) : motive (r.newPrefix outer).2 := by
  induction outer using Name.outwards_induction with
  | step outer ih =>
    generalize hans : r.newPrefix outer = answer
    cases hans ▸ r.newPrefix_answers outer with
    | known | kept | repackaged => exact start
    | created unknown unkept stays =>
      refine created outer unknown unkept stays ?_
      rcases r.newParent_cases outer with hs | ⟨hroot, hs⟩
      · rwa [hs]
      · rw [hs]
        exact ih hroot

theorem Extends.newPrefix (r : Registry) (outer : String) : r.Extends (r.newPrefix outer).2 := by
  refine newPrefix_induction (.refl r) (fun outer unknown unkept stays hparent => ?_) outer
  refine hparent.trans (.createPrefix ?_ ?_ ?_ _)
  · rw [newPrefix?_newParent, unknown]
  · rw [hparent.options, unkept]
  · rw [hparent.options, stays]

/-- Deciding a prefix has nothing to do with scopes. -/
@[simp] lemma currentScope_newPrefix (r : Registry) (outer : String) :
    (r.newPrefix outer).2.currentScope = r.currentScope :=
  newPrefix_induction (motive := fun s => s.currentScope = r.currentScope) rfl
    (fun _ _ _ _ hparent => hparent) outer

lemma Extends.newParent (r : Registry) (outer : String) : r.Extends (r.newParent outer).2 := by
  rcases r.newParent_cases outer with hs | ⟨-, hs⟩
  · rw [hs]
    exact .refl r
  · rw [hs]
    exact .newPrefix r _

/-- The answer for a namespace never changes again, and giving it again changes nothing. -/
theorem newPrefix_of_extends (h : (r.newPrefix outer).2.Extends r') :
    r'.newPrefix outer = ((r.newPrefix outer).1, r') := by
  generalize hans : r.newPrefix outer = answer at h ⊢
  cases hans ▸ r.newPrefix_answers outer with
  | known recorded => exact newPrefix_of_recorded (h.recorded recorded)
  | kept unknown kept =>
    have hunknown := h.newPrefix?_eq_none unknown (.inl kept)
    exact newPrefix_of_kept hunknown (h.options ▸ kept)
  | repackaged unknown unkept repackages =>
    have hunknown := h.newPrefix?_eq_none unknown (.inr (by simp [repackages]))
    simp [newPrefix, resolve, hunknown, h.options, unkept, repackages]
  | created unknown unkept stays =>
    have hcreated := newPrefix?_createPrefix (r.newParent outer).2 outer (r.newParent outer).1 outer
    rw [if_pos rfl] at hcreated
    exact newPrefix_of_recorded (h.recorded hcreated)

/-- The parent of a prefix to be created has been decided when the prefix is created. -/
lemma newParent_of_extends (h : (r.newParent outer).2.Extends r') :
    r'.newParent outer = ((r.newParent outer).1, r') := by
  have hoptions : r'.options = r.options := h.options.trans (Extends.newParent r outer).options
  unfold newParent at h ⊢
  rw [hoptions]
  split
  · rfl
  · rename_i hflat
    rw [hflat] at h
    split
    · rfl
    · rename_i hroot
      simp only [if_neg hroot] at h
      exact newPrefix_of_extends h

end Registry
end Pseudonym
