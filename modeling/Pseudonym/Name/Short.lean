/-!
# Short names

The shortest names over an alphabet, in order of length and then of the alphabet: `a`, …, `z`,
`aa`, `ab`, …, `zz`, `aaa` and so on.  With mixed case the capitals follow the small letters in the
alphabet.

The numbering has no digit for zero.  A number below the size of the alphabet is one letter; a
larger number `k` is the name of `k / size - 1` followed by the letter of `k % size`.
-/

namespace Pseudonym
namespace Name

/-- The number of letters: twenty-six, or twice as many with capitals. -/
def letterCount (mixedCase : Bool) : Nat :=
  if mixedCase then 52 else 26

/-- The letters in order: the small ones, then the capitals. -/
def letter (i : Nat) : Char :=
  Char.ofNat (if i < 26 then 97 + i else 65 + (i - 26))

/-- What remains of a number after its last letter is smaller than the number. -/
theorem quotient_lt {mixedCase : Bool} {k : Nat} (h : ¬ k < letterCount mixedCase) :
    k / letterCount mixedCase - 1 < k := by
  cases mixedCase <;> simp [letterCount] at * <;> omega

/-- The letters of the name with number `k`. -/
def spell (mixedCase : Bool) (k : Nat) : List Char :=
  if k < letterCount mixedCase then [letter k]
  else
    spell mixedCase (k / letterCount mixedCase - 1) ++ [letter (k % letterCount mixedCase)]
termination_by k
decreasing_by exact quotient_lt ‹_›

/-- The short name with number `k`, counted from zero. -/
def short (mixedCase : Bool) (k : Nat) : String :=
  String.ofList (spell mixedCase k)

end Name
end Pseudonym
