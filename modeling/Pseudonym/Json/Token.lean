import Pseudonym.Json.Basic
import Pseudonym.Json.Quoted

/-!
# Tokens of a JSON text

A text is cut into brackets, braces, colons, commas and scalars before anybody asks what it means.
Cutting never fails.  Where the text cannot be cut further the tokens end in one that says so, and a
reader who stops earlier for reasons of its own never learns of it; of several faults in a text the
first that a reader comes upon is therefore the one it reports.

Scalars can be read in two ways.  Where the value counts, a surrogate without its partner and a
number beyond the range of a double are faults, and a number that breaks off at the end of the text
is merely incomplete.  Where a value is passed over, only its outer form counts, and a number that
breaks off is a fault.  A token carries what both ways of reading need.
-/

namespace Pseudonym
namespace Json

/-- A part of a JSON text. -/
inductive Token where
  | openObject
  | closeObject
  | openArray
  | closeArray
  | colon
  | comma
  | null
  | bool (value : Bool)
  | number (value : Numeral)
  /-- A string, with its text if it is readable. -/
  | string (text : Option String)
  /-- The beginning of a string that cannot be completed, with the fault of one who reads it and
  of one who passes it over. -/
  | brokenString (read passed : Fault)
  /-- Any other text that cannot be cut further, with the same two faults. -/
  | broken (read passed : Fault)
  deriving DecidableEq, Repr

/-! ## Numbers -/

/-- How far a number has been read. -/
inductive Place where
  /-- After the minus sign. -/
  | sign
  /-- After a zero in front, which no digit may follow. -/
  | zero
  /-- Among the digits before the point. -/
  | whole
  /-- After the point. -/
  | point
  /-- Among the digits after the point. -/
  | fraction
  /-- After the letter of the exponent. -/
  | letter
  /-- After the sign of the exponent. -/
  | exponentSign
  /-- Among the digits of the exponent. -/
  | exponent
  deriving DecidableEq, Repr

/-- Whether a number may end at a place. -/
def Place.final : Place → Bool
  | .zero | .whole | .fraction | .exponent => true
  | .sign | .point | .letter | .exponentSign => false

/-- A number of which some characters have been read; its digits are held last one first. -/
structure OpenNumber where
  negative : Bool
  place : Place
  whole : List Char
  fraction : List Char
  exponentNegative : Bool
  exponent : List Char
  deriving DecidableEq, Repr

namespace OpenNumber

/-- The number that has been read. -/
def close (n : OpenNumber) : Numeral where
  negative := n.negative
  whole := n.whole.reverse
  fraction := n.fraction.reverse
  exponent :=
    if n.place = .exponent then some ⟨n.exponentNegative, n.exponent.reverse⟩ else none

/-- Whether a character is a decimal digit. -/
def isDigit (c : Char) : Bool := '0' ≤ c && c ≤ '9'

/-- What one more character does to a number: it belongs to it, it comes after its end, or it may
not stand there. -/
inductive Outcome where
  | more (n : OpenNumber)
  | ended
  | broken

/-- The beginning of an exponent or the end of the number. -/
def exponentOrEnd (n : OpenNumber) (c : Char) : Outcome :=
  if c = 'e' || c = 'E' then .more { n with place := .letter } else .ended

/-- The point, the beginning of an exponent or the end of the number. -/
def pointOrEnd (n : OpenNumber) (c : Char) : Outcome :=
  if c = '.' then .more { n with place := .point } else n.exponentOrEnd c

/-- Takes in one character. -/
def step (n : OpenNumber) (c : Char) : Outcome :=
  match n.place with
  | .sign =>
    if c = '0' then .more { n with place := .zero, whole := [c] }
    else if isDigit c then .more { n with place := .whole, whole := [c] }
    else .broken
  | .zero => if isDigit c then .broken else n.pointOrEnd c
  | .whole => if isDigit c then .more { n with whole := c :: n.whole } else n.pointOrEnd c
  | .point =>
    if isDigit c then .more { n with place := .fraction, fraction := [c] } else .broken
  | .fraction =>
    if isDigit c then .more { n with fraction := c :: n.fraction } else n.exponentOrEnd c
  | .letter =>
    if c = '+' then .more { n with place := .exponentSign }
    else if c = '-' then .more { n with place := .exponentSign, exponentNegative := true }
    else if isDigit c then .more { n with place := .exponent, exponent := [c] }
    else .broken
  | .exponentSign =>
    if isDigit c then .more { n with place := .exponent, exponent := [c] } else .broken
  | .exponent => if isDigit c then .more { n with exponent := c :: n.exponent } else .ended

/-- The token of a number after which the text ends. -/
def atEnd (n : OpenNumber) : Token :=
  if n.place.final then .number n.close else .broken .truncated .malformed

end OpenNumber

/-! ## Cutting -/

/-- What a text is in the middle of. -/
inductive State where
  /-- Between tokens. -/
  | between
  /-- In a string. -/
  | string (q : Quoted)
  /-- In a number. -/
  | number (n : OpenNumber)
  /-- In a word of which these characters are still to come. -/
  | word (missing : List Char) (token : Token)
  /-- At a place from which there is no going on. -/
  | stuck

/-- What a character between tokens begins: tokens that are complete with it, and what the text is
in the middle of then. -/
def begin (c : Char) : List Token × State :=
  if c = ' ' || c = '\n' || c = '\t' || c = '\r' then ([], .between)
  else if c = '\x7b' then ([.openObject], .between)
  else if c = '\x7d' then ([.closeObject], .between)
  else if c = '[' then ([.openArray], .between)
  else if c = ']' then ([.closeArray], .between)
  else if c = ':' then ([.colon], .between)
  else if c = ',' then ([.comma], .between)
  else if c = '"' then ([], .string .start)
  else if c = 'n' then ([], .word ['u', 'l', 'l'] .null)
  else if c = 't' then ([], .word ['r', 'u', 'e'] (.bool true))
  else if c = 'f' then ([], .word ['a', 'l', 's', 'e'] (.bool false))
  else if c = '-' then ([], .number ⟨true, .sign, [], [], false, []⟩)
  else if c = '0' then ([], .number ⟨false, .zero, [c], [], false, []⟩)
  else if OpenNumber.isDigit c then ([], .number ⟨false, .whole, [c], [], false, []⟩)
  else ([.broken .malformed .malformed], .stuck)

/-- What one character of the text does. -/
def State.step (s : State) (c : Char) : List Token × State :=
  match s with
  | .between => begin c
  | .string q =>
    match q.step c with
    | .more q => ([], .string q)
    | .complete text => ([.string text], .between)
    | .broken => ([.brokenString .malformed .malformed], .stuck)
  | .number n =>
    match n.step c with
    | .more n => ([], .number n)
    | .ended =>
      let (tokens, next) := begin c
      (.number n.close :: tokens, next)
    | .broken => ([.broken .malformed .malformed], .stuck)
  | .word missing token =>
    match missing with
    | [] => ([token], .stuck)
    | [last] => if c = last then ([token], .between) else ([.broken .malformed .malformed], .stuck)
    | next :: missing =>
      if c = next then ([], .word missing token) else ([.broken .malformed .malformed], .stuck)
  | .stuck => ([], .stuck)

/-- The tokens that the end of the text completes. -/
def State.atEnd : State → List Token
  | .between => []
  | .string q => [.brokenString (if q.readable then .truncated else .malformed) .truncated]
  | .number n => [n.atEnd]
  | .word _ _ => [.broken .truncated .truncated]
  | .stuck => []

/-- Cuts the rest of a text; `found` holds the tokens so far, last one first. -/
def cutFrom (found : List Token) (s : State) : List Char → List Token
  | [] => (s.atEnd.reverse ++ found).reverse
  | c :: rest =>
    let (tokens, next) := s.step c
    cutFrom (tokens.reverse ++ found) next rest

/-- The tokens of a text. -/
def tokens (text : String) : List Token :=
  cutFrom [] .between text.toList

end Json
end Pseudonym
