import Mathlib.Algebra.Group.Nat.Defs
import Mathlib.Data.List.Lex
import Mathlib.Order.Basic
import Mathlib.Tactic.SplitIfs

/-!
# Texts in the order of their bytes

Texts are compared character by character, and it comes to the same to compare their bytes
(`bytesOf_lt_iff`).  A character is written as the digits of its code to the base of 64, a byte to
each, with a mark on the first byte that tells how many follow.  Of two characters that take equally
many bytes, the first digits that differ tell the order (`encoding_lt`), and otherwise the first
bytes do: the mark for more bytes is larger than every first byte that stands for fewer.

All bytes of a character beyond ASCII carry a mark, so that an ASCII character is found among the
bytes of a text where it is found among its characters (`toUInt8_mem_utf8EncodeChar_iff`).
-/

namespace Pseudonym
namespace Text

variable {c d : Char} {mark count code code' : Nat} {s t : String}

/-- The bytes of a text. -/
def bytesOf (s : String) : List UInt8 := s.toUTF8.data.toList

lemma bytesOf_ofList (text : List Char) :
    bytesOf (String.ofList text) = text.flatMap String.utf8EncodeChar := by
  rw [bytesOf, String.toUTF8_eq_toByteArray, String.toByteArray_ofList, List.utf8Encode,
    List.data_toByteArray]

/-! ## Digits -/

/-- The last digits of a code, a byte for each. -/
def trailing : (count code : Nat) → List UInt8
  | 0, _ => []
  | count + 1, code => trailing count (code / 64) ++ [UInt8.ofNat (code % 64 + 128)]

/-- A code as a first byte with a mark and a number of bytes behind it. -/
def encoding (mark count code : Nat) : List UInt8 :=
  UInt8.ofNat (code / 64 ^ count + mark) :: trailing count code

lemma encoding_succ (mark count code : Nat) :
    encoding mark (count + 1) code =
      encoding mark count (code / 64) ++ [UInt8.ofNat (code % 64 + 128)] := by
  rw [encoding, encoding, trailing, Nat.div_div_eq_div_mul, ← Nat.pow_succ', List.cons_append]

/-- Lists that begin with different bytes are in the order of these. -/
lemma cons_lt_cons {a b : Nat} (h : a < b) (hb : b < 256) (s t : List UInt8) :
    UInt8.ofNat a :: s < UInt8.ofNat b :: t := by
  apply List.Lex.rel
  rw [UInt8.lt_iff_toNat_lt, UInt8.toNat_ofNat_of_lt' (h.trans hb), UInt8.toNat_ofNat_of_lt' hb]
  exact h

/-- Codes with equally many bytes are in the order of these. -/
lemma encoding_lt (h : code < code') (hbound : code' / 64 ^ count + mark < 256)
    (s t : List UInt8) : encoding mark count code ++ s < encoding mark count code' ++ t := by
  induction count generalizing code code' s t with
  | zero =>
    rw [Nat.pow_zero, Nat.div_one] at hbound
    simp only [encoding, Nat.pow_zero, Nat.div_one, List.cons_append]
    exact cons_lt_cons (Nat.add_lt_add_right h mark) hbound _ _
  | succ count ih =>
    rw [encoding_succ, encoding_succ, List.append_assoc, List.append_assoc]
    have hdiv : code / 64 ≤ code' / 64 := Nat.div_le_div_right (Nat.le_of_lt h)
    rcases Nat.lt_or_eq_of_le hdiv with hlt | heq
    · apply ih hlt
      rwa [Nat.div_div_eq_div_mul, ← Nat.pow_succ']
    · -- Only the last digits differ.
      rw [heq]
      apply List.Lex.append_left
      exact cons_lt_cons (by omega) (by omega) s t

/-! ## Characters -/

/-- How many bytes follow the first one of a code. -/
def trailingCount (code : Nat) : Nat :=
  if code ≤ 127 then 0 else if code ≤ 2047 then 1 else if code ≤ 65535 then 2 else 3

/-- The mark on the first byte. -/
def leadMark : (count : Nat) → Nat
  | 0 => 0
  | 1 => 192
  | 2 => 224
  | _ => 240

lemma toNat_lt (c : Char) : c.toNat < 1114112 := by
  rcases c.valid with h | ⟨-, h⟩
  · exact Nat.lt_trans h (by decide)
  · exact h

lemma utf8EncodeChar_eq (c : Char) :
    String.utf8EncodeChar c =
      encoding (leadMark (trailingCount c.toNat)) (trailingCount c.toNat) c.toNat := by
  have hlt := toNat_lt c
  unfold String.utf8EncodeChar trailingCount
  simp only [Char.toNat_val]
  split_ifs with hone htwo hthree
  · simp [encoding, trailing, leadMark]
  · have hlead : c.toNat / 64 % 32 = c.toNat / 64 := by omega
    simp [encoding, trailing, leadMark, hlead]
  · have hlead : c.toNat / 4096 % 16 = c.toNat / 4096 := by omega
    simp [encoding, trailing, leadMark, hlead]
  · have hlead : c.toNat / 262144 % 8 = c.toNat / 262144 := by omega
    simp [encoding, trailing, leadMark, hlead, Nat.div_div_eq_div_mul]

/-- The first byte of a code, a number as long as it is not known to be below 256. -/
def firstByte (code : Nat) : Nat := code / 64 ^ trailingCount code + leadMark (trailingCount code)

lemma firstByte_lt (h : code < 1114112) : firstByte code < 256 := by
  unfold firstByte trailingCount
  split_ifs <;> simp only [leadMark] <;> omega

/-- More bytes are told by a larger first byte. -/
lemma firstByte_lt_firstByte (h : code < code')
    (hcount : trailingCount code ≠ trailingCount code') : firstByte code < firstByte code' := by
  unfold firstByte
  unfold trailingCount at hcount ⊢
  split_ifs at hcount ⊢ <;> simp only [leadMark] <;> omega

/-- Characters are in the order of their bytes, whatever follows them. -/
lemma utf8EncodeChar_lt (h : c < d) (s t : List UInt8) :
    String.utf8EncodeChar c ++ s < String.utf8EncodeChar d ++ t := by
  have hcodes : c.toNat < d.toNat := h
  have hbound : firstByte d.toNat < 256 := firstByte_lt (toNat_lt d)
  rw [utf8EncodeChar_eq, utf8EncodeChar_eq]
  by_cases hcount : trailingCount c.toNat = trailingCount d.toNat
  · rw [hcount]
    exact encoding_lt hcodes hbound s t
  · exact cons_lt_cons (firstByte_lt_firstByte hcodes hcount) hbound _ _

/-! ## ASCII -/

/-- An ASCII character is one byte. -/
lemma utf8EncodeChar_of_lt (h : c.toNat < 128) : String.utf8EncodeChar c = [c.toUInt8] :=
  String.utf8EncodeChar_eq_singleton (Char.utf8Size_eq_one_iff.2 (Nat.le_of_lt_succ h))

lemma toNat_toUInt8 (h : c.toNat < 128) : c.toUInt8.toNat = c.toNat := by
  rw [Char.toUInt8, UInt32.toNat_toUInt8]
  exact Nat.mod_eq_of_lt (Nat.lt_trans h (by decide))

lemma toUInt8_inj (hc : c.toNat < 128) (hd : d.toNat < 128) : c.toUInt8 = d.toUInt8 ↔ c = d := by
  rw [← UInt8.toNat_inj, toNat_toUInt8 hc, toNat_toUInt8 hd, Char.toNat_inj]

lemma le_of_mem_trailing {b : UInt8} (h : b ∈ trailing count code) : 128 ≤ b.toNat := by
  induction count generalizing code with
  | zero => exact absurd h List.not_mem_nil
  | succ count ih =>
    rw [trailing, List.mem_append, List.mem_singleton] at h
    rcases h with h | rfl
    · exact ih h
    · have hlt : code % 64 + 128 < 256 := by omega
      rw [UInt8.toNat_ofNat_of_lt' hlt]
      omega

lemma le_firstByte (h : 128 ≤ code) : 128 ≤ firstByte code := by
  unfold firstByte trailingCount
  split_ifs <;> simp only [leadMark] <;> omega

/-- No byte of any other character is one of an ASCII character. -/
lemma le_of_mem_utf8EncodeChar {b : UInt8} (hc : 128 ≤ c.toNat) (h : b ∈ String.utf8EncodeChar c) :
    128 ≤ b.toNat := by
  rw [utf8EncodeChar_eq, encoding, List.mem_cons] at h
  rcases h with rfl | h
  · have hlt : firstByte c.toNat < 256 := firstByte_lt (toNat_lt c)
    have hle : 128 ≤ firstByte c.toNat := le_firstByte hc
    rw [firstByte] at hlt hle
    rwa [UInt8.toNat_ofNat_of_lt' hlt]
  · exact le_of_mem_trailing h

/-- The byte of an ASCII character occurs in no character but this one. -/
theorem toUInt8_mem_utf8EncodeChar_iff (hd : d.toNat < 128) :
    d.toUInt8 ∈ String.utf8EncodeChar c ↔ c = d := by
  by_cases hc : c.toNat < 128
  · rw [utf8EncodeChar_of_lt hc, List.mem_singleton, toUInt8_inj hd hc]
    exact eq_comm
  · refine iff_of_false (fun h => ?_) (by rintro rfl; exact hc hd)
    have hle := le_of_mem_utf8EncodeChar (Nat.le_of_not_lt hc) h
    rw [toNat_toUInt8 hd] at hle
    omega

/-! ## Texts -/

lemma flatMap_lt {a b : List Char} (h : List.Lex (· < ·) a b) :
    a.flatMap String.utf8EncodeChar < b.flatMap String.utf8EncodeChar := by
  induction h with
  | nil =>
    rw [List.flatMap_nil, List.flatMap_cons, utf8EncodeChar_eq, encoding, List.cons_append]
    exact List.Lex.nil
  | cons _ ih =>
    rw [List.flatMap_cons, List.flatMap_cons]
    exact List.Lex.append_left _ ih _
  | rel h =>
    rw [List.flatMap_cons, List.flatMap_cons]
    exact utf8EncodeChar_lt h _ _

lemma bytesOf_lt (h : s < t) : bytesOf s < bytesOf t := by
  rw [← String.ofList_toList (s := s), ← String.ofList_toList (s := t), bytesOf_ofList,
    bytesOf_ofList]
  exact flatMap_lt (String.lt_iff.1 h)

/-- Texts are in the order of their bytes. -/
theorem bytesOf_lt_iff : bytesOf s < bytesOf t ↔ s < t := by
  refine ⟨fun h => ?_, bytesOf_lt⟩
  by_contra hnot
  by_cases hother : t < s
  · exact List.lt_asymm h (bytesOf_lt hother)
  · have heq : s = t := String.le_antisymm (String.not_lt.1 hother) (String.not_lt.1 hnot)
    rw [heq] at h
    exact List.lt_irrefl _ h

end Text
end Pseudonym
