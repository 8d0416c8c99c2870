import Pseudonym.Name.Fold
import Pseudonym.Proofs.Name.Draws

/-!
# Folds keep candidates apart

Two names below one prefix have the same fold only if something in them is folded.  The candidates
from the numberings give folding nothing to do: the numerals and the short names without capitals
are left alone by lower-casing, and where short names have capitals names are not folded.

The text before a candidate is folded in the light of the candidate, since a sigma looks at what
follows it.  So the fold of a whole name is not the fold of the prefix followed by the candidate.
But a sigma becomes one character either way, and `exists_lowerAfter_append` needs only the length.
-/

namespace Pseudonym

namespace Text

open Unicode

/-- A character that lower-casing leaves alone wherever it stands, and does not take for a
capital. -/
structure IsSmall (c : Char) : Prop where
  ne_sigma : c ≠ capitalSigma
  lowercaseChar_eq : lowercaseChar c = [c]
  not_uppercase : isUppercase c = false

/-- The ASCII characters except for the capitals are small. -/
lemma isSmall_ascii {c : Char} (h : c.toNat < 0x41 ∨ 0x5A < c.toNat ∧ c.toNat < 0x80) :
    IsSmall c := by
  have key : ∀ n < 0x80, (n < 0x41 ∨ 0x5A < n) → Char.ofNat n ≠ capitalSigma ∧
      lowercaseChar (Char.ofNat n) = [Char.ofNat n] ∧ isUppercase (Char.ofNat n) = false := by
    decide
  have hc := key c.toNat (by omega) (by omega)
  rw [Char.ofNat_toNat] at hc
  exact ⟨hc.1, hc.2.1, hc.2.2⟩

lemma isSmall_of_isDigit {c : Char} (h : c.isDigit) : IsSmall c := by
  simp only [Char.isDigit, Bool.and_eq_true, decide_eq_true_eq] at h
  have hle : c.toNat ≤ 57 := h.2
  exact isSmall_ascii (.inl (by omega))

lemma lowerAfter_of_isSmall {before text : List Char} (h : ∀ c ∈ text, IsSmall c) :
    lowerAfter before text = text := by
  induction text generalizing before with
  | nil => rfl
  | cons c rest ih =>
    obtain ⟨hc, hrest⟩ := List.forall_mem_cons.1 h
    rw [lowerAfter, lowerBetween, if_neg hc.ne_sigma, hc.lowercaseChar_eq, ih hrest]
    rfl

/-- What follows a character has no influence on how many characters it becomes. -/
lemma length_lowerBetween (before : List Char) (c : Char) (after other : List Char) :
    (lowerBetween before c after).length = (lowerBetween before c other).length := by
  unfold lowerBetween
  split <;> rfl

/-- A small text stays at the end of a lower-cased text, and what comes before it has the length
that it has alone. -/
lemma exists_lowerAfter_append {text : List Char} (h : ∀ c ∈ text, IsSmall c)
    (before front : List Char) :
    ∃ lowered, lowerAfter before (front ++ text) = lowered ++ text ∧
      lowered.length = (lowerAfter before front).length := by
  induction front generalizing before with
  | nil => exact ⟨[], lowerAfter_of_isSmall h, rfl⟩
  | cons c rest ih =>
    obtain ⟨lowered, heq, hlen⟩ := ih (c :: before)
    refine ⟨lowerBetween before c (rest ++ text) ++ lowered, ?_, ?_⟩
    · rw [List.cons_append, lowerAfter, heq, List.append_assoc]
    · rw [lowerAfter, List.length_append, List.length_append, hlen,
        length_lowerBetween before c (rest ++ text) rest]

end Text

namespace Name

open Text

/-- Below one prefix, different small names have different folds. -/
lemma eq_of_fold_append_eq {mixedCase : Bool} {outer name other : String}
    (hname : ∀ c ∈ name.toList, IsSmall c) (hother : ∀ c ∈ other.toList, IsSmall c)
    (h : fold mixedCase (outer ++ name) = fold mixedCase (outer ++ other)) : name = other := by
  have hcapital : ∀ text : String, (∀ c ∈ text.toList, IsSmall c) →
      (outer ++ text).toList.any Unicode.isUppercase = outer.toList.any Unicode.isUppercase := by
    intro text htext
    have hnone : text.toList.any Unicode.isUppercase = false :=
      List.any_eq_false.2 fun c hc => by simp [(htext c hc).not_uppercase]
    rw [String.toList_append, List.any_append, hnone, Bool.or_false]
  unfold fold at h
  rw [hcapital name hname, hcapital other hother] at h
  split at h
  · simpa using h
  · -- Both names are lower-cased; their ends have stayed, and what stands before has one length.
    have hlist := congrArg String.toList h
    simp only [lowercase, String.toList_append, String.toList_ofList] at hlist
    obtain ⟨lowered, heq, hlen⟩ := exists_lowerAfter_append hname [] outer.toList
    obtain ⟨lowered', heq', hlen'⟩ := exists_lowerAfter_append hother [] outer.toList
    rw [heq, heq'] at hlist
    exact String.toList_inj.1 (List.append_inj hlist (hlen.trans hlen'.symm)).2

lemma isSmall_of_mem_short {k : Nat} {c : Char} (h : c ∈ (short false k).toList) :
    IsSmall c := by
  rw [toList_short] at h
  obtain ⟨i, hi, rfl⟩ := exists_letter_of_mem_spell h
  have key : ∀ i < 26, (letter i).toNat = 97 + i := by decide
  refine isSmall_ascii (.inr ?_)
  rw [key i hi]
  exact ⟨by omega, by have : i < 26 := hi; omega⟩

/-- Below a prefix, the short names that go with an option for mixed case have different folds. -/
lemma fold_short_injective (mixedCase : Bool) (outer : String) :
    Function.Injective fun k => fold mixedCase (outer ++ short mixedCase k) := by
  intro k l h
  cases mixedCase with
  | true => exact short_injective true (by simpa using h)
  | false =>
    refine short_injective false (eq_of_fold_append_eq ?_ ?_ h)
    · exact fun c hc => isSmall_of_mem_short hc
    · exact fun c hc => isSmall_of_mem_short hc

/-- Below a prefix, numerals have different folds. -/
lemma fold_numeral_injective (mixedCase : Bool) (outer : String) :
    Function.Injective fun k => fold mixedCase (outer ++ numeral k) := by
  intro k l h
  refine numeral_injective (eq_of_fold_append_eq ?_ ?_ h)
  · exact fun c hc => isSmall_of_isDigit (isDigit_of_mem_numeral hc)
  · exact fun c hc => isSmall_of_isDigit (isDigit_of_mem_numeral hc)

end Name
end Pseudonym
