/-!
# Quoted strings

A string is written between quotation marks.  Inside, a quotation mark, a backslash and the control
characters are escaped; everything else stands as it is.  `quote` uses the short escapes where there
are any and four hexadecimal digits for the other control characters.

Reading accepts more.  Any code unit may be written as four hexadecimal digits, and characters
beyond the basic plane as two of them, a high and a low surrogate.  A surrogate without its
partner makes the string unreadable but does not end it: where nobody asks what the string says it
may be passed over all the same.  `Quoted.step` takes in one character after the other and tells
when the closing mark has come, or that the text cannot be a string at all.

Four hexadecimal digits are four bytes.  If characters of several bytes stand among them, the escape
is given up when four bytes have been seen and not before, since a text that ends earlier is merely
incomplete.
-/

namespace Pseudonym
namespace Json

/-! ## Printing -/

/-- The hexadecimal digit for a number below sixteen. -/
def hexDigit (n : Nat) : Char :=
  Char.ofNat (if n < 10 then '0'.toNat + n else 'a'.toNat + (n - 10))

/-- How a character is written inside a string. -/
def escapeChar (c : Char) : List Char :=
  if c = '"' then ['\\', '"']
  else if c = '\\' then ['\\', '\\']
  else if c.toNat < 0x20 then
    if c = '\x08' then ['\\', 'b']
    else if c = '\x0c' then ['\\', 'f']
    else if c = '\n' then ['\\', 'n']
    else if c = '\r' then ['\\', 'r']
    else if c = '\t' then ['\\', 't']
    else ['\\', 'u', '0', '0', hexDigit (c.toNat / 16), hexDigit (c.toNat % 16)]
  else [c]

/-- A string between quotation marks. -/
def quote (text : String) : List Char :=
  '"' :: (text.toList.flatMap escapeChar ++ ['"'])

/-! ## Reading -/

/-- Where the reading of an escape has come to: there is none, its backslash has been read, or some
of its four bytes.  A byte that is no hexadecimal digit spoils them. -/
inductive Escape where
  | none
  | backslash
  | hex (bytes value : Nat) (valid : Bool)
  deriving DecidableEq, Repr

/-- A string of which the opening mark and some characters have been read. -/
structure Quoted where
  /-- The characters so far, last one first. -/
  content : List Char
  /-- Whether every surrogate so far has its partner, or may still get it. -/
  readable : Bool
  /-- A high surrogate whose partner must come next. -/
  high : Option Nat
  escape : Escape
  deriving DecidableEq, Repr

namespace Quoted

/-- A string of which only the opening mark has been read. -/
def start : Quoted := ⟨[], true, none, .none⟩

/-- What one more character does: the string goes on, it is complete, with its text if it is
readable, or it cannot be a string. -/
inductive Outcome where
  | more (q : Quoted)
  | complete (text : Option String)
  | broken

/-- Takes in a character that has been made out.  A high surrogate before it stays without its
partner. -/
def push (q : Quoted) (c : Char) : Quoted :=
  ⟨c :: q.content, q.readable && q.high.isNone, none, .none⟩

/-- Whether a code unit is the first half of a pair. -/
def isHigh (unit : Nat) : Bool := 0xD800 ≤ unit && unit < 0xDC00

/-- Whether a code unit is the second half of a pair. -/
def isLow (unit : Nat) : Bool := 0xDC00 ≤ unit && unit < 0xE000

/-- The character that two halves make. -/
def pair (high low : Nat) : Char :=
  Char.ofNat (0x10000 + (high - 0xD800) * 0x400 + (low - 0xDC00))

/-- Takes in a code unit. -/
def pushUnit (q : Quoted) (unit : Nat) : Quoted :=
  match q.high with
  | some high =>
    if isLow unit then ⟨pair high unit :: q.content, q.readable, none, .none⟩
    else ⟨q.content, false, none, .none⟩
  | none =>
    if isHigh unit then ⟨q.content, q.readable, some unit, .none⟩
    else if isLow unit then ⟨q.content, false, none, .none⟩
    else q.push (Char.ofNat unit)

/-- The character that a letter after a backslash stands for. -/
def shortEscape? (c : Char) : Option Char :=
  if c = '"' || c = '\\' || c = '/' then some c
  else if c = 'b' then some '\x08'
  else if c = 'f' then some '\x0c'
  else if c = 'n' then some '\n'
  else if c = 'r' then some '\r'
  else if c = 't' then some '\t'
  else none

/-- The value of a hexadecimal digit. -/
def hexValue? (c : Char) : Option Nat :=
  if '0' ≤ c && c ≤ '9' then some (c.toNat - '0'.toNat)
  else if 'a' ≤ c && c ≤ 'f' then some (c.toNat - 'a'.toNat + 10)
  else if 'A' ≤ c && c ≤ 'F' then some (c.toNat - 'A'.toNat + 10)
  else none

/-- Takes in one character. -/
def step (q : Quoted) (c : Char) : Outcome :=
  match q.escape with
  | .none =>
    if c = '"' then
      .complete <|
        if q.readable && q.high.isNone then some (String.ofList q.content.reverse) else none
    else if c.toNat < 0x20 then .broken
    else if c = '\\' then .more { q with escape := .backslash }
    else .more (q.push c)
  | .backslash =>
    if c = 'u' then .more { q with escape := .hex 0 0 true }
    else match shortEscape? c with
      | some meant => .more (q.push meant)
      | none => .broken
  | .hex bytes value valid =>
    let bytes := bytes + c.utf8Size
    let digit := hexValue? c
    let value := value * 16 + digit.getD 0
    let valid := valid && digit.isSome
    if bytes < 4 then .more { q with escape := .hex bytes value valid }
    else if valid then .more (q.pushUnit value)
    else .broken

end Quoted

end Json
end Pseudonym
