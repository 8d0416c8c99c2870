/-!
# JSON values

Models, settings and the models that come out again are written in JSON.  This module holds the
values themselves; the modules beside it read and print them.

A value keeps what was written: the members of an object in their order and with their repetitions,
and a number as the digits it was written with.  Nothing that is read here depends on what a number
amounts to, except that a number beyond the range of a double is refused where it counts, so
`Numeral.inRange` works that out and nothing else about it.
-/

namespace Pseudonym
namespace Json

/-- What can be wrong with a text.  `malformed` is no JSON, `truncated` could go on to be JSON but
ends, and `mismatched` is JSON of the wrong shape. -/
inductive Fault where
  | malformed
  | truncated
  | mismatched
  deriving DecidableEq, Repr

/-- The fault in one word. -/
def Fault.word : Fault → String
  | .malformed => "Syntax"
  | .truncated => "Eof"
  | .mismatched => "Data"

/-! ## Numbers -/

/-- The exponent of a number. -/
structure Exponent where
  negative : Bool
  digits : List Char
  deriving DecidableEq, Repr

/-- A number as it is written: a sign, the digits before and after the point, and an exponent. -/
structure Numeral where
  negative : Bool
  whole : List Char
  fraction : List Char
  exponent : Option Exponent
  deriving DecidableEq, Repr

/-- The text of a number. -/
def Numeral.text (n : Numeral) : List Char :=
  (if n.negative then ['-'] else []) ++ n.whole ++
    (if n.fraction = [] then [] else '.' :: n.fraction) ++
    match n.exponent with
    | none => []
    | some e => 'e' :: ((if e.negative then ['-'] else []) ++ e.digits)

/-- What a digit stands for. -/
def digitValue (c : Char) : Nat := c.toNat - '0'.toNat

/-- The digits of a number that fit into sixty-four bits, and the power of ten that belongs to
them.  Once a digit does not fit it is left out; `full` tells that this has happened. -/
structure Significand where
  value : Nat
  power : Int
  full : Bool

/-- Whether another digit fits. -/
def Significand.fits (s : Significand) (digit : Char) : Bool :=
  s.value * 10 + digitValue digit < Nat.pow 2 64

/-- Takes in a digit before the point; one that is left out multiplies the rest by ten. -/
def Significand.takeWhole (s : Significand) (digit : Char) : Significand :=
  if !s.full && s.fits digit then ⟨s.value * 10 + digitValue digit, s.power, false⟩
  else ⟨s.value, s.power + 1, true⟩

/-- Takes in a digit after the point; one that is left out changes nothing. -/
def Significand.takeFraction (s : Significand) (digit : Char) : Significand :=
  if !s.full && s.fits digit then ⟨s.value * 10 + digitValue digit, s.power - 1, false⟩
  else ⟨s.value, s.power, true⟩

/-- The number of fifty-three significant bits nearest to `n`; of two the one with an even last
bit. -/
def roundToDouble (n : Nat) : Nat :=
  let unit := Nat.pow 2 (n.log2 + 1 - 53)
  let quotient := n / unit
  let twice := 2 * (n % unit)
  let up := decide (unit < twice) || (decide (unit = twice) && quotient % 2 == 1)
  (if up then quotient + 1 else quotient) * unit

/-- The least product that is rounded to infinity. -/
def overflowBound : Nat := Nat.pow 2 1024 - Nat.pow 2 970

/-- Whether a significand times a power of ten stays below infinity when it is worked out in
doubles. -/
def staysFinite (value : Nat) (power : Int) : Bool :=
  if value = 0 || power < 0 then true
  else if power ≤ 308 then
    roundToDouble value * roundToDouble (Nat.pow 10 power.toNat) < overflowBound
  else false

/-- Whether a number lies in the range of a double. -/
def Numeral.inRange (n : Numeral) : Bool :=
  let whole := n.whole.foldl Significand.takeWhole ⟨0, 0, false⟩
  let s := n.fraction.foldl Significand.takeFraction { whole with full := false }
  match n.exponent with
  | none => if n.fraction = [] && !whole.full then true else staysFinite s.value s.power
  | some e =>
    let amount := e.digits.foldl (fun sum digit => sum * 10 + digitValue digit) 0
    staysFinite s.value (if e.negative then s.power - amount else s.power + amount)

end Json

/-! ## Values -/

/-- A JSON value. -/
inductive Json where
  | null
  | bool (value : Bool)
  | number (value : Json.Numeral)
  | string (value : String)
  | array (items : List Json)
  | object (members : List (String × Json))
  deriving Inhabited, Repr

end Pseudonym
