import Mathlib.Data.List.Induction
import Mathlib.Data.List.Shortlex
import Mathlib.Data.Nat.PSub
import Mathlib.Data.Set.Function
import Pseudonym.Proofs.Name.Numbering

/-!
# Short names in order

Every word over the alphabet that is not empty is the short name of exactly one number, and names
with larger numbers come later: they are longer, or as long and later in the order of the alphabet
(`short_names_are_in_order`).

A numeral system with a zero would be neither.  It would skip the words that begin with a zero, and
its order would agree with that of the words for equal lengths only.  What makes the difference is
the one that is taken off the quotient before the front of a name is spelled.  Proofs follow that
recursion: a name of more than one letter is the name of the quotient less one, and a last letter.
So a comparison of names is decided by the fronts or, where these agree, by the last letters
(`isBefore_spell`), and a word is reached by reaching its front (`exists_spell`).

Taking off that one is safe.  `spell?` is the numbering with every step checked, and it never stops
(`spell?_eq`).
-/

namespace Pseudonym
namespace Name

variable {mixedCase : Bool} {i j k : Nat}

/-! ## The alphabet -/

/-- The small letters in order. -/
def smallLetters : List Char :=
  ['a', 'b', 'c', 'd', 'e', 'f', 'g', 'h', 'i', 'j', 'k', 'l', 'm',
    'n', 'o', 'p', 'q', 'r', 's', 't', 'u', 'v', 'w', 'x', 'y', 'z']

/-- The capitals in order. -/
def capitals : List Char :=
  ['A', 'B', 'C', 'D', 'E', 'F', 'G', 'H', 'I', 'J', 'K', 'L', 'M',
    'N', 'O', 'P', 'Q', 'R', 'S', 'T', 'U', 'V', 'W', 'X', 'Y', 'Z']

/-- The letters of short names in order. -/
def alphabet (mixedCase : Bool) : List Char :=
  if mixedCase then smallLetters ++ capitals else smallLetters

lemma length_alphabet (mixedCase : Bool) : (alphabet mixedCase).length = letterCount mixedCase := by
  cases mixedCase <;> rfl

lemma nodup_alphabet (mixedCase : Bool) : (alphabet mixedCase).Nodup := by
  cases mixedCase <;> decide

lemma getElem?_alphabet (h : i < letterCount mixedCase) :
    (alphabet mixedCase)[i]? = some (letter i) := by
  have key : ∀ mixedCase, ∀ i < letterCount mixedCase,
      (alphabet mixedCase)[i]? = some (letter i) := by decide
  exact key mixedCase i h

lemma idxOf_letter (h : i < letterCount mixedCase) :
    (alphabet mixedCase).idxOf (letter i) = i := by
  obtain ⟨hlt, heq⟩ := List.getElem?_eq_some_iff.1 (getElem?_alphabet h)
  rw [← heq]
  exact (nodup_alphabet mixedCase).idxOf_getElem i hlt

lemma mem_alphabet_iff {c : Char} :
    c ∈ alphabet mixedCase ↔ ∃ i < letterCount mixedCase, c = letter i := by
  rw [List.mem_iff_getElem?]
  constructor
  · rintro ⟨i, hi⟩
    have hlt : i < letterCount mixedCase := by
      rw [← length_alphabet]
      exact (List.getElem?_eq_some_iff.1 hi).1
    rw [getElem?_alphabet hlt] at hi
    exact ⟨i, hlt, (Option.some.inj hi).symm⟩
  · rintro ⟨i, hi, rfl⟩
    exact ⟨i, getElem?_alphabet hi⟩

/-! ## Order -/

/-- Whether a word comes before another: the shorter one does, and of two that are equally long the
one that has, at the first place where they differ, the earlier letter. -/
def IsBefore (mixedCase : Bool) : List Char → List Char → Prop :=
  List.Shortlex fun c d => (alphabet mixedCase).idxOf c < (alphabet mixedCase).idxOf d

/-- Words that differ at some place still do so with more behind them. -/
lemma lex_append {α : Type} {r : α → α → Prop} {s t : List α} (h : List.Lex r s t)
    (hlength : s.length = t.length) (s' t' : List α) : List.Lex r (s ++ s') (t ++ t') := by
  induction h with
  | nil => exact nomatch hlength
  | cons _ ih => exact .cons (ih (Nat.succ.inj hlength))
  | rel hr => exact .rel hr

/-- A letter behind each of two words does not change their order. -/
lemma IsBefore.append_letter {s t : List Char} (h : IsBefore mixedCase s t) (c d : Char) :
    IsBefore mixedCase (s ++ [c]) (t ++ [d]) := by
  rcases List.shortlex_def.1 h with hlt | ⟨hlength, hlex⟩
  · apply List.Shortlex.of_length_lt
    simpa using hlt
  · apply List.Shortlex.of_lex
    · simpa using hlength
    · exact lex_append hlex hlength [c] [d]

lemma isBefore_letter (hi : i < letterCount mixedCase) (hj : j < letterCount mixedCase) :
    IsBefore mixedCase [letter i] [letter j] ↔ i < j := by
  rw [IsBefore, List.shortlex_singleton_iff, idxOf_letter hi, idxOf_letter hj]

/-- The names of larger numbers come later. -/
theorem isBefore_spell (h : j < k) :
    IsBefore mixedCase (spell mixedCase j) (spell mixedCase k) := by
  induction k using Nat.strong_induction_on generalizing j with
  | _ k ih =>
    have hpos := letterCount_pos mixedCase
    by_cases hk : k < letterCount mixedCase
    · have hj : j < letterCount mixedCase := by omega
      rw [spell_of_lt hj, spell_of_lt hk]
      exact (isBefore_letter hj hk).2 h
    · rw [spell_of_ge hk]
      by_cases hj : j < letterCount mixedCase
      · -- A single letter is shorter.
        have hne := spell_ne_nil mixedCase (k / letterCount mixedCase - 1)
        apply List.Shortlex.of_length_lt
        rw [spell_of_lt hj, List.length_append, List.length_singleton, List.length_singleton]
        have hfront := List.length_pos_of_ne_nil hne
        omega
      · rw [spell_of_ge hj]
        have hdiv : j / letterCount mixedCase ≤ k / letterCount mixedCase :=
          Nat.div_le_div_right (Nat.le_of_lt h)
        have hfirst := Nat.div_pos (Nat.le_of_not_lt hj) hpos
        rcases Nat.lt_or_eq_of_le hdiv with hlt | heq
        · have hfront := ih _ (quotient_lt hk)
            (show j / letterCount mixedCase - 1 < k / letterCount mixedCase - 1 by omega)
          exact hfront.append_letter _ _
        · -- The fronts are the same, and the last letters decide.
          rw [heq]
          have hmod : j % letterCount mixedCase < k % letterCount mixedCase := by
            have hj' := Nat.div_add_mod j (letterCount mixedCase)
            have hk' := Nat.div_add_mod k (letterCount mixedCase)
            rw [heq] at hj'
            omega
          have hlast := (isBefore_letter (Nat.mod_lt j hpos) (Nat.mod_lt k hpos)).2 hmod
          exact hlast.append_left _

/-- The order of the names is that of the numbers. -/
lemma isBefore_spell_iff :
    IsBefore mixedCase (spell mixedCase j) (spell mixedCase k) ↔ j < k := by
  refine ⟨fun h => ?_, isBefore_spell⟩
  have hasymm : Std.Asymm fun c d : Char =>
      (alphabet mixedCase).idxOf c < (alphabet mixedCase).idxOf d :=
    ⟨fun _ _ => Nat.lt_asymm⟩
  have hlex : Std.Asymm (IsBefore mixedCase) := List.Shortlex.asymm
  rcases Nat.lt_trichotomy j k with hlt | rfl | hgt
  · exact hlt
  · exact absurd h (hlex.asymm _ _ h)
  · exact absurd (isBefore_spell hgt) (hlex.asymm _ _ h)

/-! ## Every word -/

/-- The number of a word is found from that of its front and its last letter. -/
lemma exists_spell {word : List Char} (hne : word ≠ []) (h : ∀ c ∈ word, c ∈ alphabet mixedCase) :
    ∃ k, spell mixedCase k = word := by
  induction word using List.reverseRecOn with
  | nil => exact absurd rfl hne
  | append_singleton front last ih =>
    obtain ⟨i, hi, rfl⟩ := mem_alphabet_iff.1 (h last (by simp))
    by_cases hfront : front = []
    · subst hfront
      exact ⟨i, spell_of_lt hi⟩
    · obtain ⟨j, rfl⟩ := ih hfront fun c hc => h c (List.mem_append_left _ hc)
      have hpos := letterCount_pos mixedCase
      have hge : ¬ i + letterCount mixedCase * (j + 1) < letterCount mixedCase := by
        rw [Nat.mul_add_one]
        omega
      have hdiv : (i + letterCount mixedCase * (j + 1)) / letterCount mixedCase = j + 1 := by
        rw [Nat.add_mul_div_left _ _ hpos, Nat.div_eq_of_lt hi, Nat.zero_add]
      have hmod : (i + letterCount mixedCase * (j + 1)) % letterCount mixedCase = i := by
        rw [Nat.add_mul_mod_self_left, Nat.mod_eq_of_lt hi]
      refine ⟨i + letterCount mixedCase * (j + 1), ?_⟩
      rw [spell_of_ge hge, hdiv, hmod, Nat.add_sub_cancel]

/-! ## With every step checked -/

/-- The letters of the name with number `k`, or nothing where a subtraction would go below zero or a
letter would lie outside the alphabet. -/
def spell? (mixedCase : Bool) (k : Nat) : Option (List Char) :=
  if k < letterCount mixedCase then do
    let last ← (alphabet mixedCase)[k % letterCount mixedCase]?
    return [last]
  else
    match _ : Nat.psub (k / letterCount mixedCase) 1 with
    | none => none
    | some quotient => do
      let front ← spell? mixedCase quotient
      let last ← (alphabet mixedCase)[k % letterCount mixedCase]?
      return front ++ [last]
termination_by k
decreasing_by
  have hquotient := Nat.psub_eq_some.1 ‹_›
  have hle := Nat.div_le_self k (letterCount mixedCase)
  omega

/-- Nothing goes wrong in the numbering. -/
theorem spell?_eq (mixedCase : Bool) (k : Nat) : spell? mixedCase k = some (spell mixedCase k) := by
  have hpos := letterCount_pos mixedCase
  induction k using Nat.strong_induction_on with
  | _ k ih =>
    have hlast := getElem?_alphabet (Nat.mod_lt k hpos)
    rw [spell?, hlast]
    by_cases hk : k < letterCount mixedCase
    · rw [if_pos hk, spell_of_lt hk, Nat.mod_eq_of_lt hk]
      rfl
    · have hquotient : Nat.psub (k / letterCount mixedCase) 1 =
          some (k / letterCount mixedCase - 1) :=
        Nat.psub_eq_sub (Nat.div_pos (Nat.le_of_not_lt hk) hpos)
      rw [if_neg hk, spell_of_ge hk]
      split
      · rename_i hnone
        exact nomatch hnone.symm.trans hquotient
      · rename_i quotient hsome
        obtain rfl := Option.some.inj (hsome.symm.trans hquotient)
        rw [ih _ (quotient_lt hk)]
        rfl

/-! ## The numbering -/

/-- The short names are a numbering of all words over the alphabet but the empty one, in the order
of length and then of the alphabet.  In working a name out, no subtraction goes below zero and no
letter is looked up outside the alphabet. -/
theorem short_names_are_in_order (mixedCase : Bool) :
    Set.BijOn (short mixedCase) Set.univ
        {name | name ≠ "" ∧ ∀ c ∈ name.toList, c ∈ alphabet mixedCase} ∧
      (∀ j k, j < k ↔ IsBefore mixedCase (short mixedCase j).toList (short mixedCase k).toList) ∧
      ∀ k, (spell? mixedCase k).map String.ofList = some (short mixedCase k) := by
  refine ⟨⟨?maps, ?injective, ?surjective⟩, ?order, ?checked⟩
  case maps =>
    refine fun k _ => ⟨fun hempty => ?_, fun c hc => ?_⟩
    · have hnil := congrArg String.toList hempty
      rw [toList_short] at hnil
      exact spell_ne_nil mixedCase k hnil
    · rw [toList_short] at hc
      exact mem_alphabet_iff.2 (exists_letter_of_mem_spell hc)
  case injective => exact (short_injective mixedCase).injOn
  case surjective =>
    rintro name ⟨hne, hletters⟩
    have hne' : name.toList ≠ [] := by simpa using hne
    obtain ⟨k, hk⟩ := exists_spell hne' hletters
    refine ⟨k, Set.mem_univ k, ?_⟩
    rw [short, hk, String.ofList_toList]
  case order =>
    intro j k
    rw [toList_short, toList_short]
    exact isBefore_spell_iff.symm
  case checked =>
    intro k
    rw [spell?_eq]
    rfl

/-- After the last name of a length comes the first that is longer. -/
example : (short false 25, short false 26, short false 701, short false 702) =
    ("z", "aa", "zz", "aaa") ∧ (short true 51, short true 52) = ("Z", "aa") := by
  decide +kernel

end Name
end Pseudonym
