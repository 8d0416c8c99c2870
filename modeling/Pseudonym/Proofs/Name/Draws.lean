import Mathlib.Data.Finset.Card
import Mathlib.Order.Interval.Finset.Nat
import Pseudonym.Proofs.Name.Numbering

/-!
# Draws from a sequence find a name

Drawing a name is a search with a bound.  This module shows that the bound is never met: wherever
the search begins, it ends at the first entry that passes, and there is one.

What passes is told by a finite set of refused values, such as the folds of all type names that are
given away.  Candidates are compared through a function, such as the fold of the candidate below
some prefix, and all that is asked of it is that it keeps the entries of the numbering at the bottom
of the sequence apart.  Word lists need no such condition: they are finite, and `exists_offers`
allows two refusals for each of their words, one for the word itself and one for the entry that it
hides.

A draw need not have a bound at all, then.  `Draws` is the search without one, and `DrawEnds` says
that it ends with the same result.

No name is at two positions of a sequence (`nameAt?_inj`).  So names that are taken one after the
other, with nothing refused, are different (`nodup_take`).
-/

namespace Pseudonym
namespace Name
namespace Sequence

/-! ## Entries -/

/-- The numbering at the bottom of a sequence, below all of its word lists. -/
def base : Sequence → Nat → String
  | .short mixedCase => Name.short mixedCase
  | .numerals => numeral
  | .words _ rest => rest.base

lemma base_injective (s : Sequence) : Function.Injective s.base := by
  induction s with
  | short mixedCase => exact short_injective mixedCase
  | numerals => exact numeral_injective
  | words list rest ih => exact ih

/-- Beyond the words of a list stand the entries of the sequence behind it, without the words. -/
lemma nameAt?_words_add (list : WordList) (rest : Sequence) (k : Nat) :
    nameAt? (words list rest) (list.size + k) =
      (rest.nameAt? k).filter fun name => !list.contains name := by
  rw [nameAt?, if_neg (by omega), Nat.add_sub_cancel_left]

/-- An entry of a sequence with a word list is a word at its place in the list, or it is an entry of
the sequence behind the list and not one of the words. -/
lemma nameAt?_words_eq_some_iff {list : WordList} {rest : Sequence} {k : Nat} {name : String} :
    nameAt? (words list rest) k = some name ↔
      list.words[k]? = some name ∨
        list.size ≤ k ∧ rest.nameAt? (k - list.size) = some name ∧ name ∉ list.words := by
  rw [nameAt?]
  split
  · rename_i hk
    have hout : ¬ list.size ≤ k := Nat.not_le.2 hk
    simp [WordList.get?, hout]
  · rename_i hk
    have hnone : list.words[k]? = none := List.getElem?_eq_none (Nat.not_lt.1 hk)
    simp [hnone, Nat.not_lt.1 hk, Option.filter_eq_some_iff, WordList.contains]

/-- An entry of a sequence with a word list is a word, or an entry of the sequence behind it. -/
lemma mem_or_nameAt?_of_words {list : WordList} {rest : Sequence} {k : Nat} {name : String}
    (h : nameAt? (words list rest) k = some name) :
    name ∈ list.words ∨ ∃ j, rest.nameAt? j = some name := by
  rcases nameAt?_words_eq_some_iff.1 h with hword | ⟨-, hbehind, -⟩
  · exact .inl (List.mem_of_getElem? hword)
  · exact .inr ⟨_, hbehind⟩

/-- No candidate is the empty name. -/
lemma entry_ne_empty {s : Sequence} {k : Nat} {name : String} (h : s.nameAt? k = some name) :
    name ≠ "" := by
  induction s generalizing k with
  | short mixedCase =>
    obtain rfl := Option.some.inj h
    exact fun he => spell_ne_nil mixedCase k (by simpa using congrArg String.toList he)
  | numerals =>
    obtain rfl := Option.some.inj h
    exact fun he => numeral_ne_nil k (by rw [numeral, he]; rfl)
  | words list rest ih =>
    rcases mem_or_nameAt?_of_words h with hmem | ⟨j, hj⟩
    · exact fun he => list.nonempty (he ▸ hmem)
    · exact ih hj

/-- No name is at two positions of a sequence. -/
theorem nameAt?_inj {s : Sequence} {j k : Nat} {name : String} (hj : s.nameAt? j = some name)
    (hk : s.nameAt? k = some name) : j = k := by
  induction s generalizing j k with
  | short mixedCase => exact short_injective mixedCase (Option.some.inj (hj.trans hk.symm))
  | numerals => exact numeral_injective (Option.some.inj (hj.trans hk.symm))
  | words list rest ih =>
    rw [nameAt?_words_eq_some_iff] at hj hk
    rcases hj with hj | ⟨hjle, hj, hjout⟩ <;> rcases hk with hk | ⟨hkle, hk, hkout⟩
    · obtain ⟨hjlt, -⟩ := List.getElem?_eq_some_iff.1 hj
      exact (List.getElem?_inj hjlt list.nodup).1 (hj.trans hk.symm)
    · exact absurd (List.mem_of_getElem? hj) hkout
    · exact absurd (List.mem_of_getElem? hk) hjout
    · have hsame := ih hj hk
      omega

/-! ## Seeking -/

section Seek

variable {good : Nat → Bool} {fuel start : Nat}

lemma le_seek : start ≤ seek good fuel start := by
  induction fuel generalizing start with
  | zero => exact Nat.le_refl start
  | succ fuel ih =>
    rw [seek]
    split
    · exact Nat.le_refl start
    · exact Nat.le_of_succ_le ih

/-- Nothing that the search has passed is good. -/
lemma not_good_of_lt_seek {j : Nat} (hj : start ≤ j) (h : j < seek good fuel start) :
    good j = false := by
  induction fuel generalizing start with
  | zero => exact absurd h (Nat.not_lt.2 hj)
  | succ fuel ih =>
    rw [seek] at h
    split at h <;> rename_i hgood
    · omega
    · rcases Nat.eq_or_lt_of_le hj with rfl | hlt
      · simpa using hgood
      · exact ih hlt h

/-- The search ends at a good position if there is one within its bound. -/
lemma good_seek {k : Nat} (fuel : Nat) (hle : start ≤ k) (hk : k ≤ start + fuel)
    (hgood : good k = true) : good (seek good fuel start) = true := by
  induction fuel generalizing start with
  | zero =>
    obtain rfl : k = start := by omega
    exact hgood
  | succ fuel ih =>
    rw [seek]
    split
    · assumption
    · rename_i hstart
      refine ih ?_ (by omega)
      rcases Nat.eq_or_lt_of_le hle with rfl | hlt
      · exact absurd hgood hstart
      · exact hlt

end Seek

/-! ## Something passes -/

lemma offers_eq_true_iff {s : Sequence} {free : String → Bool} {k : Nat} :
    s.offers free k = true ↔ ∃ name, s.nameAt? k = some name ∧ free name = true := by
  simp [offers, Option.any_eq_true]

section Exists

variable {β : Type} [DecidableEq β]

/-- A numbering without repetitions soon leaves a finite set. -/
lemma exists_notMem_of_injective {g : Nat → β} (hg : Function.Injective g) (refused : Finset β)
    (start : Nat) : ∃ k, start ≤ k ∧ k ≤ start + refused.card ∧ g k ∉ refused := by
  have hcard : refused.card < ((Finset.Icc start (start + refused.card)).image g).card := by
    rw [Finset.card_image_of_injective _ hg, Nat.card_Icc]
    omega
  obtain ⟨x, hx, hfree⟩ := Finset.exists_mem_notMem_of_card_lt_card hcard
  obtain ⟨k, hk, rfl⟩ := Finset.mem_image.1 hx
  exact ⟨k, (Finset.mem_Icc.1 hk).1, (Finset.mem_Icc.1 hk).2, hfree⟩

/-- Among the next positions of a sequence there is one whose entry passes.  For each word there
may be two positions that do not pass, and for each refused value one more. -/
theorem exists_offers (s : Sequence) (f : String → β) (hf : Function.Injective (f ∘ s.base))
    (refused : Finset β) (free : String → Bool) (hfree : ∀ name, f name ∉ refused → free name)
    (start : Nat) :
    ∃ k, start ≤ k ∧ k ≤ start + (2 * s.wordCount + refused.card) ∧ s.offers free k = true := by
  induction s generalizing refused free start with
  | short mixedCase =>
    obtain ⟨k, hle, hk, hout⟩ := exists_notMem_of_injective hf refused start
    exact ⟨k, hle, by omega, offers_eq_true_iff.2 ⟨_, rfl, hfree _ hout⟩⟩
  | numerals =>
    obtain ⟨k, hle, hk, hout⟩ := exists_notMem_of_injective hf refused start
    exact ⟨k, hle, by omega, offers_eq_true_iff.2 ⟨_, rfl, hfree _ hout⟩⟩
  | words list rest ih =>
    -- Behind the words, an entry is refused also if it is a word.
    obtain ⟨k, hle, hk, hoffers⟩ := ih hf (refused ∪ (list.words.map f).toFinset)
      (fun name => free name && !list.contains name)
      (fun name hout => by
        rw [Finset.mem_union, not_or, List.mem_toFinset, List.mem_map] at hout
        have hword : name ∉ list.words := fun hmem => hout.2 ⟨name, hmem, rfl⟩
        simp [hfree name hout.1, WordList.contains, hword])
      (start - list.size)
    have hcard : (refused ∪ (list.words.map f).toFinset).card ≤ refused.card + list.size := by
      refine (Finset.card_union_le _ _).trans (Nat.add_le_add_left ?_ _)
      exact (List.toFinset_card_le _).trans_eq (List.length_map f)
    obtain ⟨name, hentry, hpass⟩ := offers_eq_true_iff.1 hoffers
    rw [Bool.and_eq_true] at hpass
    refine ⟨list.size + k, by omega, ?_, offers_eq_true_iff.2 ⟨name, ?_, hpass.1⟩⟩
    · rw [wordCount]
      omega
    · rw [nameAt?_words_add, hentry]
      exact Option.filter_some_pos hpass.2

end Exists

/-! ## Drawing -/

/-- A drawn name is the first entry from `start` on that passes, and the position after it is
remembered. -/
structure IsFirst (s : Sequence) (free : String → Bool) (start : Nat) (drawn : Drawn) : Prop where
  lt_next : start < drawn.next
  entry : s.nameAt? (drawn.next - 1) = some drawn.name
  passes : free drawn.name = true
  refused : ∀ j, start ≤ j → j < drawn.next - 1 → ∀ name, s.nameAt? j = some name →
    free name = false

namespace IsFirst

variable {s : Sequence} {free : String → Bool} {start : Nat} {drawn drawn' : Drawn}

/-- If nothing before the start passes either, the draw could have begun with the sequence. -/
lemma from_zero (h : s.IsFirst free start drawn)
    (hbefore : ∀ j < start, ∀ name, s.nameAt? j = some name → free name = false) :
    s.IsFirst free 0 drawn where
  lt_next := Nat.zero_lt_of_lt h.lt_next
  entry := h.entry
  passes := h.passes
  refused := by
    intro j _ hlt name hentry
    rcases Nat.lt_or_ge j start with hj | hj
    · exact hbefore j hj name hentry
    · exact h.refused j hj hlt name hentry

/-- What a draw from the beginning leaves behind is refused, or is the drawn name. -/
lemma refused_or_eq (h : s.IsFirst free 0 drawn) {k : Nat} {name : String} (hk : k < drawn.next)
    (hentry : s.nameAt? k = some name) : free name = false ∨ name = drawn.name := by
  rcases Nat.lt_or_ge k (drawn.next - 1) with hlt | hge
  · exact .inl (h.refused k (Nat.zero_le k) hlt name hentry)
  · obtain rfl : k = drawn.next - 1 := by omega
    rw [h.entry] at hentry
    exact .inr (Option.some.inj hentry).symm

/-- An entry that passes, and before which none does, is the one that a draw from the beginning
ends at. -/
lemma eq_of_entry (h : s.IsFirst free 0 drawn) {k : Nat} {name : String}
    (hentry : s.nameAt? k = some name) (hpass : free name = true)
    (hbefore : ∀ j < k, ∀ other, s.nameAt? j = some other → free other = false) :
    k + 1 = drawn.next ∧ name = drawn.name := by
  have hnext : 0 < drawn.next := h.lt_next
  -- Neither position comes before the other, for what comes before does not pass.
  have hle : k ≤ drawn.next - 1 := by
    by_contra hlt
    have hrefused := hbefore _ (Nat.not_le.1 hlt) _ h.entry
    simp [h.passes] at hrefused
  have hge : drawn.next - 1 ≤ k := by
    by_contra hlt
    have hrefused := h.refused k (Nat.zero_le k) (Nat.not_le.1 hlt) name hentry
    simp [hpass] at hrefused
  have hk : k = drawn.next - 1 := Nat.le_antisymm hle hge
  refine ⟨by omega, ?_⟩
  rw [hk, h.entry] at hentry
  exact (Option.some.inj hentry).symm

/-- Two draws from the beginning that have the same names to avoid end at the same name. -/
lemma eq (h : s.IsFirst free 0 drawn) (h' : s.IsFirst free 0 drawn') : drawn = drawn' := by
  have hnext : 0 < drawn.next := h.lt_next
  obtain ⟨hsame, hname⟩ := h'.eq_of_entry h.entry h.passes
    fun j hj other hother => h.refused j (Nat.zero_le j) hj other hother
  have hposition : drawn.next = drawn'.next := by omega
  cases drawn
  cases drawn'
  simp_all

end IsFirst

lemma contains_eq_false_iff {refused : Std.ExtTreeSet String} {name : String} :
    refused.contains name = false ↔ name ∉ refused := by
  rw [← Std.ExtTreeSet.contains_iff_mem, Bool.not_eq_true]

/-- A draw from a sequence among names that avoid a finite set ends at the first of them. -/
theorem isFirst_draw (s : Sequence) (f : String → String) (hf : Function.Injective (f ∘ s.base))
    (refused : Std.ExtTreeSet String) (start : Nat) :
    s.IsFirst (fun name => !refused.contains (f name)) start
      (s.draw (fun name => !refused.contains (f name)) refused.size start) := by
  set free : String → Bool := fun name => !refused.contains (f name) with hdef
  have hcard : refused.toList.toFinset.card ≤ refused.size := by
    rw [← Std.ExtTreeSet.length_toList]
    exact List.toFinset_card_le _
  obtain ⟨k, hle, hk, hoffers⟩ := s.exists_offers f hf refused.toList.toFinset free
    (fun name hout => by
      rw [List.mem_toFinset, Std.ExtTreeSet.mem_toList] at hout
      rw [hdef, Bool.not_eq_true']
      exact contains_eq_false_iff.2 hout)
    start
  have hgood := good_seek (2 * s.wordCount + refused.size) hle (by omega) hoffers
  obtain ⟨name, hentry, hpass⟩ := offers_eq_true_iff.1 hgood
  have hname : (s.draw free refused.size start).name = name := by
    simp [draw, hentry]
  refine ⟨Nat.lt_succ_of_le le_seek, ?_, ?_, fun j hj hlt other hother => ?_⟩
  · rw [hname]
    exact hentry
  · rw [hname]
    exact hpass
  · have hbad := not_good_of_lt_seek hj hlt
    simpa [offers, hother] using hbad

/-! ## Draws without a bound -/

/-- What a draw comes to that has no bound.  It goes from position to position, passes over those at
which a word list hides an entry and those at which the name is refused, and stops at the first name
that passes. -/
inductive Draws (s : Sequence) (free : String → Bool) : Nat → Drawn → Prop where
  | found {k : Nat} {name : String} (entry : s.nameAt? k = some name) (passes : free name = true) :
      Draws s free k ⟨name, k + 1⟩
  | refused {k : Nat} {name : String} {drawn : Drawn} (entry : s.nameAt? k = some name)
      (refused : free name = false) (rest : Draws s free (k + 1) drawn) : Draws s free k drawn
  | hidden {k : Nat} {drawn : Drawn} (entry : s.nameAt? k = none)
      (rest : Draws s free (k + 1) drawn) : Draws s free k drawn

section Unbounded

variable {s : Sequence} {free : String → Bool} {start : Nat} {drawn drawn' : Drawn}

lemma Draws.unique (h : s.Draws free start drawn) (h' : s.Draws free start drawn') :
    drawn = drawn' := by
  induction h with
  | found entry passes =>
    cases h' with
    | found entry' => rw [Option.some.inj (entry.symm.trans entry')]
    | refused entry' refused =>
      rw [← Option.some.inj (entry.symm.trans entry')] at refused
      exact nomatch passes.symm.trans refused
    | hidden entry' => exact nomatch entry.symm.trans entry'
  | refused entry refused _ ih =>
    cases h' with
    | found entry' passes =>
      rw [← Option.some.inj (entry.symm.trans entry')] at passes
      exact nomatch passes.symm.trans refused
    | refused _ _ rest' => exact ih rest'
    | hidden entry' => exact nomatch entry.symm.trans entry'
  | hidden entry _ ih =>
    cases h' with
    | found entry' => exact nomatch entry.symm.trans entry'
    | refused entry' => exact nomatch entry.symm.trans entry'
    | hidden _ rest' => exact ih rest'

/-- The first name that passes is reached after finitely many turns. -/
theorem IsFirst.draws (h : s.IsFirst free start drawn) : s.Draws free start drawn := by
  generalize hturns : drawn.next - 1 - start = turns
  induction turns generalizing start with
  | zero =>
    have hlast : start = drawn.next - 1 := by
      have hlt := h.lt_next
      omega
    subst hlast
    have hfound := Draws.found h.entry h.passes
    rwa [Nat.sub_add_cancel (Nat.one_le_of_lt h.lt_next)] at hfound
  | succ turns ih =>
    have hlater : s.IsFirst free (start + 1) drawn :=
      ⟨by omega, h.entry, h.passes, fun j hj => h.refused j (Nat.le_of_succ_le hj)⟩
    have hrest := ih hlater (by omega)
    cases hentry : s.nameAt? start with
    | none => exact .hidden hentry hrest
    | some name =>
      have hrefused := h.refused start (Nat.le_refl start) (by omega) name hentry
      exact .refused hentry hrefused hrest

lemma seek_le {good : Nat → Bool} (fuel : Nat) : seek good fuel start ≤ start + fuel := by
  induction fuel generalizing start with
  | zero => exact Nat.le_refl start
  | succ fuel ih =>
    rw [seek]
    split
    · exact Nat.le_add_right start (fuel + 1)
    · have hrest : seek good fuel (start + 1) ≤ start + 1 + fuel := ih
      omega

end Unbounded

/-- Whether a draw without a bound ends, and with the same result as the one that has a bound.  That
one ends after two turns for each word and one for each name that is refused. -/
structure DrawEnds (s : Sequence) (free : String → Bool) (used start : Nat) : Prop where
  draws_iff : ∀ drawn, s.Draws free start drawn ↔ drawn = s.draw free used start
  next_le : (s.draw free used start).next ≤ start + (2 * s.wordCount + used) + 1

/-- A draw ends where its outcome is the first name that passes. -/
lemma IsFirst.drawEnds {s : Sequence} {free : String → Bool} {used start : Nat}
    (h : s.IsFirst free start (s.draw free used start)) : s.DrawEnds free used start where
  draws_iff drawn := by
    constructor
    · intro hdraws
      exact hdraws.unique h.draws
    · rintro rfl
      exact h.draws
  next_le := Nat.succ_le_succ (seek_le (2 * s.wordCount + used))

/-! ## The next names -/

section Next

variable {s : Sequence} {p q : Nat}

/-- The next name is the first entry from a position on. -/
lemma isFirst_next (s : Sequence) (start : Nat) :
    s.IsFirst (fun _ => true) start (s.next start) := by
  have hfirst := s.isFirst_draw id s.base_injective ∅ start
  have hfree : (fun name : String => !(∅ : Std.ExtTreeSet String).contains (id name)) =
      fun _ => true := by
    funext name
    rw [Std.ExtTreeSet.contains_empty]
    rfl
  rwa [hfree] at hfirst

/-- A draw that refuses nothing ends. -/
theorem drawEnds_next (s : Sequence) (start : Nat) : s.DrawEnds (fun _ => true) 0 start :=
  (s.isFirst_next start).drawEnds

lemma lt_next (s : Sequence) (start : Nat) : start < (s.next start).next :=
  (s.isFirst_next start).lt_next

lemma nameAt?_next (s : Sequence) (start : Nat) :
    s.nameAt? ((s.next start).next - 1) = some (s.next start).name :=
  (s.isFirst_next start).entry

/-- Two of the next names are the same exactly if they leave the sequence at the same position. -/
lemma name_next_eq_iff : (s.next p).name = (s.next q).name ↔ (s.next p).next = (s.next q).next := by
  have hp := s.nameAt?_next p
  have hq := s.nameAt?_next q
  constructor
  · intro hname
    rw [← hname] at hq
    have hposition := nameAt?_inj hp hq
    have hlt := s.lt_next p
    have hlt' := s.lt_next q
    omega
  · intro hnext
    rw [hnext, hq] at hp
    exact (Option.some.inj hp).symm

lemma exists_nameAt?_of_mem_take {count start : Nat} {name : String}
    (h : name ∈ (s.take count start).1) : ∃ k, start ≤ k ∧ s.nameAt? k = some name := by
  induction count generalizing start with
  | zero => exact absurd h List.not_mem_nil
  | succ count ih =>
    have hlt := s.lt_next start
    rcases List.mem_cons.1 h with rfl | h
    · exact ⟨_, by omega, s.nameAt?_next start⟩
    · obtain ⟨k, hk, hentry⟩ := ih h
      exact ⟨k, by omega, hentry⟩

/-- Names that are taken from a sequence one after the other are different. -/
theorem nodup_take (s : Sequence) (count start : Nat) : (s.take count start).1.Nodup := by
  induction count generalizing start with
  | zero => exact List.nodup_nil
  | succ count ih =>
    refine List.nodup_cons.2 ⟨fun hmem => ?_, ih _⟩
    obtain ⟨k, hk, hentry⟩ := exists_nameAt?_of_mem_take hmem
    have hposition := nameAt?_inj (s.nameAt?_next start) hentry
    have hlt := s.lt_next start
    omega

end Next

end Sequence
end Name
end Pseudonym
