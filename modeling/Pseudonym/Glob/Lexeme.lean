import Pseudonym.Glob.Basic

/-!
# The written parts of a glob

A glob is written in characters, some of which have a meaning of their own.  Lexemes are the
smallest meaningful parts: a single character, an escaped one, a question mark, one star or two, a
whole character class, the braces of a group.  What two stars mean depends on what stands around
them, and that is left to `Pseudonym.Glob.Parse`.

A class that is never closed, a range that runs backwards and a backslash with nothing behind it
cannot be read.  The row of lexemes then ends in `fault`, so that a reader who goes from left to
right meets the faults of a glob in the order in which they are written.
-/

namespace Pseudonym
namespace Glob

/-- Why a glob cannot be read. -/
inductive Fault where
  | unclosedClass
  | backwardRange (first last : Char)
  | unopenedGroup
  | unclosedGroup
  | danglingEscape
  deriving DecidableEq, Repr

/-- The fault in words. -/
def Fault.message : Fault → String
  | .unclosedClass => "unclosed character class; missing ']'"
  | .backwardRange first last =>
    "invalid range; '" ++ first.toString ++ "' > '" ++ last.toString ++ "'"
  | .unopenedGroup =>
    "unopened alternate group; missing '\x7b' (maybe escape '\x7d' with '[\x7d]'?)"
  | .unclosedGroup =>
    "unclosed alternate group; missing '\x7d' (maybe escape '\x7b' with '[\x7b]'?)"
  | .danglingEscape => "dangling '\\'"

/-- A smallest meaningful part of a written glob. -/
inductive Lexeme where
  | char (c : Char)
  | escaped (c : Char)
  | question
  | star
  | doubleStar
  | charClass (negated : Bool) (spans : List Span)
  | openGroup
  | closeGroup
  | fault (why : Fault)
  deriving DecidableEq, Repr

/-! ## Classes -/

/-- A class that is being read: its spans so far, last one first, and whether a hyphen has just been
read that may stretch the last span. -/
structure OpenClass where
  negated : Bool
  spans : List Span
  stretching : Bool

/-- The class after its closing bracket.  A hyphen that stretched nothing stands for itself. -/
def OpenClass.close (k : OpenClass) : Lexeme :=
  let spans := if k.stretching then ⟨'-', '-'⟩ :: k.spans else k.spans
  .charClass k.negated spans.reverse

/-- Adds a character to a class: it is the end of the last span after a hyphen, and a span of its
own otherwise. -/
def OpenClass.add (k : OpenClass) (c : Char) : Except Fault OpenClass :=
  match k.stretching, k.spans with
  | true, ⟨first, _⟩ :: earlier =>
    if c < first then .error (.backwardRange first c)
    else .ok ⟨k.negated, ⟨first, c⟩ :: earlier, false⟩
  | _, spans => .ok ⟨k.negated, ⟨c, c⟩ :: spans, false⟩

/-- Reads one character of a class other than the closing bracket.  The first one stands for itself,
and so does a hyphen after a hyphen; any other hyphen prepares to stretch the last span. -/
def OpenClass.read (k : OpenClass) (c : Char) : Except Fault OpenClass :=
  if c = '-' && !k.stretching && !k.spans.isEmpty then .ok ⟨k.negated, k.spans, true⟩
  else k.add c

/-! ## Reading -/

/-- The lexemes of a written glob.  The first argument is the class that is being read, if one is
open. -/
def lex : Option OpenClass → List Char → List Lexeme
  | some _, [] => [.fault .unclosedClass]
  | some k, c :: rest =>
    if c = ']' && !k.spans.isEmpty then k.close :: lex none rest
    else match k.read c with
      | .ok k => lex (some k) rest
      | .error why => [.fault why]
  | none, [] => []
  | none, '?' :: rest => .question :: lex none rest
  | none, '*' :: '*' :: rest => .doubleStar :: lex none rest
  | none, '*' :: rest => .star :: lex none rest
  | none, '[' :: '!' :: rest => lex (some ⟨true, [], false⟩) rest
  | none, '[' :: '^' :: rest => lex (some ⟨true, [], false⟩) rest
  | none, '[' :: rest => lex (some ⟨false, [], false⟩) rest
  | none, '\x7b' :: rest => .openGroup :: lex none rest
  | none, '\x7d' :: rest => .closeGroup :: lex none rest
  | none, '\\' :: c :: rest => .escaped c :: lex none rest
  | none, ['\\'] => [.fault .danglingEscape]
  | none, c :: rest => .char c :: lex none rest

end Glob
end Pseudonym
