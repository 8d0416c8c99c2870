/-!
# The syntax of qualified names

A qualified name is a namespace prefix followed by a simple name, as in `com.example.Widget`.  A
prefix is empty, which stands for the root namespace, or ends in a dot.  A nested type appends a
dollar sign and a segment to the name of the type that encloses it, as in `com.example.Widget$1`.

Nothing here is ever refused: levels may be empty, dots may follow one another or come first, and
every function has an answer for every text.  The functions are stated over the characters of a
name, and `enclosingPrefixes` lists once and for all the prefixes that walking outwards from a name
meets, longest first and the root last.
-/

namespace Pseudonym
namespace Name

/-- Removes one dot from the end. -/
def dropFinalDot (name : List Char) : List Char :=
  if name.getLast? = some '.' then name.dropLast else name

/-- The part of a name up to its last dot, which is kept. -/
def throughLastDot (name : List Char) : List Char :=
  (name.reverse.dropWhile (· ≠ '.')).reverse

/-- The part of a name after its last dot. -/
def afterLastDot (name : List Char) : List Char :=
  (name.reverse.takeWhile (· ≠ '.')).reverse

/-- The namespace prefix of a qualified name.  A dot at the end is skipped, so that a prefix has the
prefix of its parent namespace. -/
def namespacePrefix (name : String) : String :=
  String.ofList (throughLastDot (dropFinalDot name.toList))

/-- The prefix of the namespace around a prefix.  The root is its own parent. -/
def parentPrefix (outer : String) : String :=
  if outer = "" then outer else namespacePrefix outer

/-- What follows the last dot of a qualified name. -/
def simpleName (name : String) : String :=
  String.ofList (afterLastDot name.toList)

/-- The namespace that a prefix stands for, without the final dot. -/
def namespaceOf (outer : String) : String :=
  String.ofList (dropFinalDot outer.toList)

/-- The prefix of a namespace.  The empty namespace is the root, and a final dot is not doubled. -/
def prefixOf (namespaceName : String) : String :=
  if namespaceName = "" ∨ namespaceName.toList.getLast? = some '.' then namespaceName
  else namespaceName ++ "."

/-- The prefix under which the types nested in a type are named. -/
def prefixInside (enclosing : String) : String := enclosing ++ "$"

/-! ## Walking outwards -/

/-- Lists the places of a name at which a prefix ends, the latest first.  `passed` holds the
characters before the current place in reverse; a prefix ends there if there are none or the
nearest one is a dot. -/
def prefixesAfter (passed : List Char) (found : List (List Char)) :
    List Char → List (List Char)
  | [] => found
  | c :: rest =>
    prefixesAfter (c :: passed)
      (if passed.head?.all (· = '.') then passed.reverse :: found else found) rest

/-- The proper prefixes of a name that are empty or end in a dot, longest first.  The empty name has
none. -/
def enclosingPrefixes (name : String) : List String :=
  (prefixesAfter [] [] name.toList).map String.ofList

/-! ## Numbered types -/

/-- Removes the characters that fill exactly `n` bytes of a text in UTF-8, if its characters can be
divided there. -/
def dropBytes? : Nat → List Char → Option (List Char)
  | 0, text => some text
  | _ + 1, [] => none
  | n + 1, c :: rest => if c.utf8Size ≤ n + 1 then dropBytes? (n + 1 - c.utf8Size) rest else none

/-- Whether a character is one of the ten ASCII digits. -/
def isDigit (c : Char) : Bool := '0' ≤ c && c ≤ '9'

/-- Whether `inner` continues for one byte and a number beyond the length of `outer`, as
`Outer$12` does beyond `Outer`.  Only the length of `outer` counts. -/
def isNumberedIn (inner outer : String) : Bool :=
  match dropBytes? (outer.utf8ByteSize + 1) inner.toList with
  | none => false
  | some suffix => !suffix.isEmpty && suffix.all isDigit

end Name
end Pseudonym
