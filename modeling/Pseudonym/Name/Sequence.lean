import Pseudonym.Name.Short
import Pseudonym.Name.WordList

/-!
# Sequences of candidate names

New names are drawn from endless sequences: short names, decimal numerals, or the words of a list
followed by another sequence without those words.  A sequence is a fixed numbering, and drawing
from it is a matter of remembering a position.  `nameAt? s k` is the name at position `k`; it is
absent where a word list hides an entry of the sequence behind it, so that no word comes twice.

Whoever draws a name has names that it must not be: those already given, those of the library, or
none at all.  `draw` goes on from a position to the first entry that passes.  The search is bounded,
and the bound is one that it never meets.  If at most `used` names are refused, then a sequence over
`n` words has to be followed through at most `2 * n + used` positions before one passes: `n` for the
words themselves, `n` for the entries they hide, and `used` for the rest.
-/

namespace Pseudonym
namespace Name

/-- A source of candidate names. -/
inductive Sequence where
  /-- The short names, with or without capitals. -/
  | short (mixedCase : Bool)
  /-- The numerals `1`, `2`, `3` and so on. -/
  | numerals
  /-- The words of a list in order, then another sequence without them. -/
  | words (list : WordList) (rest : Sequence)

namespace Sequence

/-- The name at a position, absent where a word list hides it. -/
def nameAt? : Sequence → Nat → Option String
  | .short mixedCase, k => some (Name.short mixedCase k)
  | .numerals, k => some (toString (k + 1))
  | .words list rest, k =>
    if k < list.size then list.get? k
    else (rest.nameAt? (k - list.size)).filter fun name => !list.contains name

/-- The number of words in all lists of the sequence. -/
def wordCount : Sequence → Nat
  | .short _ => 0
  | .numerals => 0
  | .words list rest => list.size + rest.wordCount

/-- Short names of either kind, after the words of a list if there is one. -/
def withWords (list : Option WordList) (mixedCase : Bool) : Sequence :=
  match list with
  | none => .short mixedCase
  | some list => .words list (.short mixedCase)

/-! ## Drawing -/

/-- The first good position among `fuel + 1` from `start` on, or the last of them. -/
def seek (good : Nat → Bool) : (fuel start : Nat) → Nat
  | 0, start => start
  | fuel + 1, start => if good start then start else seek good fuel (start + 1)

/-- Whether the name at a position is there and passes. -/
def offers (s : Sequence) (free : String → Bool) (k : Nat) : Bool :=
  (s.nameAt? k).any free

/-- A name together with the position after it. -/
structure Drawn where
  name : String
  next : Nat

/-- The first name from a position on that passes, where at most `used` names do not. -/
def draw (s : Sequence) (free : String → Bool) (used start : Nat) : Drawn :=
  let k := seek (s.offers free) (2 * s.wordCount + used) start
  ⟨(s.nameAt? k).getD "", k + 1⟩

/-- The next name of the sequence, whatever it is. -/
def next (s : Sequence) (start : Nat) : Drawn :=
  s.draw (fun _ => true) 0 start

/-- The next `count` names of the sequence, with the position after them. -/
def take (s : Sequence) : (count start : Nat) → List String × Nat
  | 0, start => ([], start)
  | count + 1, start =>
    let drawn := s.next start
    let (names, final) := s.take count drawn.next
    (drawn.name :: names, final)

end Sequence

end Name
end Pseudonym
