import Mathlib.Data.Nat.Basic
import Mathlib.Tactic.ByContra
import Pseudonym.Name.Sequence

/-!
# Short names and numerals are numberings

The candidates for new names come from two endless numberings, the short names and the decimal
numerals.  This module shows that neither gives a name twice, and of which characters their names
consist.

The short names are a numeral system without a zero, so the usual uniqueness of digits does not
apply to them.  `spell_injective` follows the recursion of `spell` instead: of two equal spellings
the last letters agree, and so do the spellings before them, whose numbers are smaller.
-/

namespace Pseudonym
namespace Name

/-! ## Letters -/

lemma letterCount_pos (mixedCase : Bool) : 0 < letterCount mixedCase := by
  cases mixedCase <;> decide

lemma letterCount_le (mixedCase : Bool) : letterCount mixedCase ≤ 52 := by
  cases mixedCase <;> decide

/-- Different places in the alphabet hold different letters. -/
lemma letter_injective {i j : Nat} (hi : i < 52) (hj : j < 52) (h : letter i = letter j) :
    i = j := by
  have key : ∀ i < 52, (letter i).toNat = if i < 26 then 97 + i else 65 + (i - 26) := by decide
  have hcode := congrArg Char.toNat h
  rw [key i hi, key j hj] at hcode
  split at hcode <;> split at hcode <;> omega

/-! ## Short names -/

lemma spell_of_lt {mixedCase : Bool} {k : Nat} (h : k < letterCount mixedCase) :
    spell mixedCase k = [letter k] := by
  rw [spell, if_pos h]

lemma spell_of_ge {mixedCase : Bool} {k : Nat} (h : ¬ k < letterCount mixedCase) :
    spell mixedCase k =
      spell mixedCase (k / letterCount mixedCase - 1) ++ [letter (k % letterCount mixedCase)] := by
  rw [spell, if_neg h]

lemma spell_ne_nil (mixedCase : Bool) (k : Nat) : spell mixedCase k ≠ [] := by
  by_cases h : k < letterCount mixedCase
  · simp [spell_of_lt h]
  · simp [spell_of_ge h]

/-- A spelling uses letters of the alphabet only. -/
lemma exists_letter_of_mem_spell {mixedCase : Bool} {k : Nat} {c : Char}
    (h : c ∈ spell mixedCase k) : ∃ i < letterCount mixedCase, c = letter i := by
  induction k using Nat.strong_induction_on with
  | _ k ih =>
    by_cases hk : k < letterCount mixedCase
    · rw [spell_of_lt hk, List.mem_singleton] at h
      exact ⟨k, hk, h⟩
    · rw [spell_of_ge hk, List.mem_append, List.mem_singleton] at h
      rcases h with h | h
      · exact ih _ (quotient_lt hk) h
      · exact ⟨_, Nat.mod_lt _ (letterCount_pos mixedCase), h⟩

/-- No two numbers are spelled alike. -/
theorem spell_injective (mixedCase : Bool) : Function.Injective (spell mixedCase) := by
  intro k
  induction k using Nat.strong_induction_on with
  | _ k ih =>
    intro l h
    have hle := letterCount_le mixedCase
    have hpos := letterCount_pos mixedCase
    by_cases hk : k < letterCount mixedCase <;> by_cases hl : l < letterCount mixedCase
    · rw [spell_of_lt hk, spell_of_lt hl, List.singleton_inj] at h
      exact letter_injective (by omega) (by omega) h
    · -- One letter is not a spelling followed by another letter.
      rw [spell_of_lt hk, spell_of_ge hl] at h
      have hlen := congrArg List.length h
      simp [spell_ne_nil] at hlen
    · rw [spell_of_ge hk, spell_of_lt hl] at h
      have hlen := congrArg List.length h
      simp [spell_ne_nil] at hlen
    · rw [spell_of_ge hk, spell_of_ge hl] at h
      obtain ⟨hinit, hlast⟩ := List.append_inj' h rfl
      have hquot := ih _ (quotient_lt hk) hinit
      have hmod : k % letterCount mixedCase = l % letterCount mixedCase := by
        refine letter_injective ?_ ?_ (List.singleton_inj.1 hlast)
        · exact Nat.lt_of_lt_of_le (Nat.mod_lt _ hpos) hle
        · exact Nat.lt_of_lt_of_le (Nat.mod_lt _ hpos) hle
      have hdiv : k / letterCount mixedCase = l / letterCount mixedCase := by
        have hk1 := Nat.div_pos (Nat.le_of_not_lt hk) hpos
        have hl1 := Nat.div_pos (Nat.le_of_not_lt hl) hpos
        omega
      calc
        k = letterCount mixedCase * (k / letterCount mixedCase) + k % letterCount mixedCase :=
          (Nat.div_add_mod ..).symm
        _ = letterCount mixedCase * (l / letterCount mixedCase) + l % letterCount mixedCase := by
          rw [hdiv, hmod]
        _ = l := Nat.div_add_mod ..

@[simp] lemma toList_short (mixedCase : Bool) (k : Nat) :
    (short mixedCase k).toList = spell mixedCase k := by
  simp [short]

lemma short_injective (mixedCase : Bool) : Function.Injective (short mixedCase) := by
  intro k l h
  have hlist := congrArg String.toList h
  rw [toList_short, toList_short] at hlist
  exact spell_injective mixedCase hlist

/-! ## Numerals -/

/-- The numeral at a position: numerals begin with one. -/
def numeral (k : Nat) : String := toString (k + 1)

lemma toList_numeral (k : Nat) : (numeral k).toList = Nat.toDigits 10 (k + 1) := by
  simp [numeral]

lemma numeral_injective : Function.Injective numeral := by
  intro k l h
  have hlist := congrArg String.toList h
  rw [toList_numeral, toList_numeral] at hlist
  have hvalue := congrArg (Nat.ofDigitChars 10 · 0) hlist
  simp only [Nat.ofDigitChars_ten_toDigits] at hvalue
  exact Nat.succ_injective hvalue

lemma isDigit_of_mem_numeral {k : Nat} {c : Char} (h : c ∈ (numeral k).toList) :
    c.isDigit := by
  rw [toList_numeral] at h
  exact Nat.isDigit_of_mem_toDigits (by decide) (by decide) h

lemma numeral_ne_nil (k : Nat) : (numeral k).toList ≠ [] := by
  rw [toList_numeral]
  exact Nat.toDigits_ne_nil

end Name
end Pseudonym
