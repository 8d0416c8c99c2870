/-!
# Globs

A glob describes a set of paths, that is, of byte strings whose levels are separated by slashes.  It
is a row of tokens, and a path matches if the tokens can eat it up one after another.  `Token.after`
lists what a token may leave over: several rests if the token may take more or less, and none if it
cannot take anything.  A path matches when some way of eating leaves nothing, which is what `eatsUp`
says.  `Pseudonym.Glob.Matching` finds it out without trying every way.

Matching works on bytes, not characters.  A question mark takes one byte, and so does a class, which
sees a character outside ASCII as its bytes one by one; both can therefore take part of a character.
-/

namespace Pseudonym
namespace Glob

/-- The byte that separates the levels of a path. -/
def slash : UInt8 := 47

/-- The bytes of a text in UTF-8. -/
def bytes (text : List Char) : List UInt8 :=
  text.flatMap String.utf8EncodeChar

/-! ## Classes -/

/-- One item of a character class: the characters from a first to a last one. -/
structure Span where
  first : Char
  last : Char
  deriving DecidableEq, Repr

/-- Whether a byte belongs to a span.  A span of one character holds the bytes of that character.
Any other span holds the bytes of its first character but the last, a range from that last byte to
the first byte of its last character, and the remaining bytes of its last character. -/
def Span.holds (span : Span) (b : UInt8) : Bool :=
  let low := String.utf8EncodeChar span.first
  let high := String.utf8EncodeChar span.last
  if span.first = span.last then low.contains b
  else
    low.dropLast.contains b || high.tail.contains b ||
      (low.getLast?.any (· ≤ b) && high.head?.any (b ≤ ·))

/-! ## Tokens -/

/-- A part of a glob. -/
inductive Token where
  /-- This character. -/
  | literal (c : Char)
  /-- One byte that is not a slash. -/
  | one
  /-- Any number of bytes that are not slashes. -/
  | many
  /-- Nothing, a slash, or anything that ends in a slash. -/
  | leading
  /-- A slash and anything behind it. -/
  | trailing
  /-- A slash, or anything that begins and ends in a slash of its own. -/
  | between
  /-- One byte in a class, or one byte outside it. -/
  | oneOf (negated : Bool) (spans : List Span)
  /-- The end of a group, which takes nothing. -/
  | groupEnd
  deriving DecidableEq, Repr

/-- What is left of a path after the given bytes, if it begins with them. -/
def eat? : (front path : List UInt8) → Option (List UInt8)
  | [], path => some path
  | _ :: _, [] => none
  | a :: front, b :: path => if a = b then eat? front path else none

/-- What is left of a path after any number of bytes within its first level. -/
def afterLevel : List UInt8 → List (List UInt8)
  | [] => [[]]
  | b :: path => (b :: path) :: if b = slash then [] else afterLevel path

/-- What is left of a path after any number of bytes. -/
def afterAnything : List UInt8 → List (List UInt8)
  | [] => [[]]
  | b :: path => (b :: path) :: afterAnything path

/-- What is left of a path after each of its slashes. -/
def afterSlashes : List UInt8 → List (List UInt8)
  | [] => []
  | b :: path => if b = slash then path :: afterSlashes path else afterSlashes path

/-- What is left of a path after one byte of the right kind. -/
def afterByte (right : UInt8 → Bool) : List UInt8 → List (List UInt8)
  | [] => []
  | b :: path => if right b then [path] else []

/-- What a token may leave of a path. -/
def Token.after : Token → List UInt8 → List (List UInt8)
  | .literal c, path => (eat? (String.utf8EncodeChar c) path).toList
  | .one, path => afterByte (· ≠ slash) path
  | .many, path => afterLevel path
  | .leading, path => path :: afterSlashes path
  | .trailing, path => (eat? [slash] path).toList.flatMap afterAnything
  | .between, path => (eat? [slash] path).toList.flatMap fun rest => rest :: afterSlashes rest
  | .oneOf negated spans, path => afterByte (fun b => spans.any (·.holds b) != negated) path
  | .groupEnd, path => [path]

/-- Whether a row of tokens can eat up a path. -/
def eatsUp : List Token → List UInt8 → Bool
  | [], path => path.isEmpty
  | token :: tokens, path => (token.after path).any (eatsUp tokens)

end Glob

/-- A glob is a row of tokens, or the one glob that every path matches. -/
inductive Glob where
  | everything
  | row (tokens : List Glob.Token)
  deriving DecidableEq, Repr

end Pseudonym
