import Pseudonym.Glob.Lexeme

/-!
# Reading globs

A glob is read from its lexemes from left to right.  A single character, a question mark, a star or
a class is one token.  Two stars are a token of their own only if they stand for whole levels:

* at the very beginning, before a slash or the end, they are `Token.leading`;
* after a slash, before a slash they are `Token.between`, and at the end or before a closing brace
  `Token.trailing`; the slash before them is part of the token, and so is the slash after;
* several in a row merge into one;
* anywhere else they are two single stars.

Groups may nest.  The beginning of a group counts as the beginning of a glob, and the end of a group
leaves a token that takes nothing, so that what follows is not at the beginning.
-/

namespace Pseudonym
namespace Glob

/-- How far the reading of a glob has come. -/
structure Reading where
  /-- The tokens of the innermost open group, last one first. -/
  tokens : List Token
  /-- The tokens of the groups around it, innermost group first. -/
  around : List (List Token)
  /-- The character before. -/
  before : Option Char

/-- The beginning of a glob. -/
def Reading.start : Reading := ⟨[], [], none⟩

/-- Adds a token that was written with `c` as its last character. -/
def Reading.push (r : Reading) (token : Token) (c : Char) : Reading :=
  ⟨token :: r.tokens, r.around, some c⟩

/-- What two stars are, from what stands around them. -/
inductive Stars where
  /-- Two single stars. -/
  | single
  /-- A token for whole levels that replaces the token before it unless that one already says as
  much; `slashed` tells whether the slash behind the stars is part of it. -/
  | levels (token : Token) (slashed : Bool)
  deriving DecidableEq, Repr

/-- Replaces the token before two stars, which stood for the slash in front of them. -/
def mergeLevels (token : Token) : List Token → List Token
  | [] => [token]
  | .leading :: rest => .leading :: rest
  | .trailing :: rest => .trailing :: rest
  | _ :: rest => token :: rest

/-- Whether two stars may stand for whole levels after the tokens and the character before them. -/
def Reading.atLevel (r : Reading) : Bool :=
  r.tokens.isEmpty || r.before = some '/' ||
    (!r.around.isEmpty && r.before = some '\x7b')

/-- Decides what two stars are before the lexemes `rest`. -/
def Reading.stars (r : Reading) (rest : List Lexeme) : Stars :=
  if !r.atLevel then .single
  else match rest with
    | [] => .levels (if r.tokens.isEmpty then .leading else .trailing) false
    | .char '/' :: _ => .levels (if r.tokens.isEmpty then .leading else .between) true
    | .closeGroup :: _ =>
      if r.tokens.isEmpty || r.around.isEmpty then .single else .levels .trailing false
    | _ => .single

/-- The tokens of a row of lexemes that continues a reading. -/
def parseFrom (r : Reading) : List Lexeme → Except Fault (List Token)
  | [] => if r.around.isEmpty then .ok r.tokens.reverse else .error .unclosedGroup
  | .char c :: rest => parseFrom (r.push (.literal c) c) rest
  | .escaped c :: rest => parseFrom (r.push (.literal c) c) rest
  | .question :: rest => parseFrom (r.push .one '?') rest
  | .star :: rest => parseFrom (r.push .many '*') rest
  | .charClass negated spans :: rest => parseFrom (r.push (.oneOf negated spans) ']') rest
  | .openGroup :: rest => parseFrom ⟨[], r.tokens :: r.around, some '\x7b'⟩ rest
  | .closeGroup :: rest =>
    match r.around with
    | [] => .error .unopenedGroup
    | outer :: around => parseFrom ⟨.groupEnd :: (r.tokens ++ outer), around, some '\x7d'⟩ rest
  | .fault why :: _ => .error why
  | .doubleStar :: rest =>
    match r.stars rest, rest with
    | .levels token true, _ :: rest =>
      parseFrom ⟨mergeLevels token r.tokens, r.around, some '/'⟩ rest
    | .levels token _, rest => parseFrom ⟨mergeLevels token r.tokens, r.around, some '*'⟩ rest
    | .single, rest => parseFrom ⟨.many :: .many :: r.tokens, r.around, some '*'⟩ rest

/-- The glob that a text describes.  Two stars for whole levels and nothing else match every
path. -/
def parse (text : List Char) : Except Fault Glob := do
  let tokens ← parseFrom .start (lex none text)
  return if tokens = [.leading] then .everything else .row tokens

end Glob
end Pseudonym
