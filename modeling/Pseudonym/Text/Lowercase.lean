import Pseudonym.Unicode.Cased
import Pseudonym.Unicode.Lowercase

/-!
# Lower-casing a text

A text is lower-cased character by character, with one exception that needs the surrounding text.
The capital sigma becomes the final form when it ends a word: a letter with case stands before it
and none stands after it, where accents, apostrophes and the like do not count.  Everywhere else it
becomes the ordinary small sigma.

`lowerAfter` walks the text and carries what it has passed, nearest character first, so that both
sides of a sigma are at hand.
-/

namespace Pseudonym
namespace Text

open Unicode

/-- Whether the nearest character that is not passed over is a letter with case. -/
def casedNext (text : List Char) : Bool :=
  match text.dropWhile isCaseIgnorable with
  | [] => false
  | c :: _ => isCased c

/-- The capital letter sigma. -/
def capitalSigma : Char := Char.ofNat 0x3A3

/-- The small form of a sigma between `before`, nearest character first, and `after`. -/
def smallSigma (before after : List Char) : Char :=
  if casedNext before && !casedNext after then Char.ofNat 0x3C2 else Char.ofNat 0x3C3

/-- The small form of one character in its place. -/
def lowerBetween (before : List Char) (c : Char) (after : List Char) : List Char :=
  if c = capitalSigma then [smallSigma before after] else lowercaseChar c

/-- Lower-cases what is left of a text of which `before` has been passed. -/
def lowerAfter (before : List Char) : List Char → List Char
  | [] => []
  | c :: after => lowerBetween before c after ++ lowerAfter (c :: before) after

/-- The text in small letters. -/
def lowercase (text : String) : String :=
  String.ofList (lowerAfter [] text.toList)

end Text
end Pseudonym
