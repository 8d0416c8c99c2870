import Pseudonym.Glob.Basic

/-!
# Matching a path

Tokens that may take more or less leave many rests, and trying all of them for every token in turn
would take exponential time.  But whatever the tokens before have eaten, what is left is one of the
tails of the path, and whether the tokens to come can eat up a tail is the same question each time.
So the answers for all tails are held in one row, beginning with that for the whole path.  Going
through the tokens from the last to the first, each row of answers is worked out from the one before
in a single pass over the path.

`before_answers` says that one pass is right for one token, and `accepts_row` that the answer for
the whole path is in the end what `eatsUp` says.
-/

namespace Pseudonym
namespace Glob

/-- The answers to a question about a path and each of its tails. -/
def answers (p : List UInt8 → Bool) : List UInt8 → List Bool
  | [] => [p []]
  | b :: path => p (b :: path) :: answers p path

/-- The answer for the whole path. -/
def first (found : List Bool) : Bool := found.headD false

@[simp] theorem first_cons (answer : Bool) (others : List Bool) :
    first (answer :: others) = answer := rfl

@[simp] theorem first_answers (p : List UInt8 → Bool) (path : List UInt8) :
    first (answers p path) = p path := by
  cases path <;> rfl

/-! ## One pass

Each function takes the answers for what is left, and gives those for a path from which something
may be taken first. -/

/-- One byte of the right kind is taken. -/
def beforeByte (right : UInt8 → Bool) : List UInt8 → List Bool → List Bool
  | b :: path, _ :: later => (right b && first later) :: beforeByte right path later
  | _, _ => [false]

/-- Bytes are taken as long as `go` allows. -/
def beforeWhile (go : UInt8 → Bool) : List UInt8 → List Bool → List Bool
  | b :: path, here :: later =>
    let found := beforeWhile go path later
    (here || (go b && first found)) :: found
  | _, later => later

/-- Everything through some slash is taken. -/
def beforeSlashes : List UInt8 → List Bool → List Bool
  | b :: path, _ :: later =>
    let found := beforeSlashes path later
    ((b = slash && first later) || first found) :: found
  | _, _ => [false]

/-- Nothing is taken, or everything through some slash. -/
def beforeLeading (path : List UInt8) (later : List Bool) : List Bool :=
  List.zipWith (· || ·) later (beforeSlashes path later)

/-- The bytes of a text are taken. -/
def beforeBytes (front path : List UInt8) (later : List Bool) : List Bool :=
  front.foldr (fun a later => beforeByte (a = ·) path later) later

/-- The answers before a token. -/
def Token.before (path : List UInt8) : Token → List Bool → List Bool
  | .literal c, later => beforeBytes (String.utf8EncodeChar c) path later
  | .one, later => beforeByte (· ≠ slash) path later
  | .many, later => beforeWhile (· ≠ slash) path later
  | .leading, later => beforeLeading path later
  | .trailing, later => beforeByte (slash = ·) path (beforeWhile (fun _ => true) path later)
  | .between, later => beforeByte (slash = ·) path (beforeLeading path later)
  | .oneOf negated spans, later =>
    beforeByte (fun b => spans.any (·.holds b) != negated) path later
  | .groupEnd, later => later

/-! ## A pass is right -/

variable (p : List UInt8 → Bool)

theorem beforeByte_answers (right : UInt8 → Bool) (path : List UInt8) :
    beforeByte right path (answers p path) =
      answers (fun s => (afterByte right s).any p) path := by
  induction path with
  | nil => rfl
  | cons b path ih =>
    rw [answers, beforeByte, ih, first_answers, answers, afterByte]
    cases right b <;> simp

theorem beforeLevel_answers (path : List UInt8) :
    beforeWhile (· ≠ slash) path (answers p path) =
      answers (fun s => (afterLevel s).any p) path := by
  induction path with
  | nil => simp [answers, beforeWhile, afterLevel]
  | cons b path ih =>
    simp only [answers, beforeWhile, ih, first_answers, afterLevel, List.any_cons]
    by_cases h : b = slash <;> simp [h]

theorem beforeAnything_answers (path : List UInt8) :
    beforeWhile (fun _ => true) path (answers p path) =
      answers (fun s => (afterAnything s).any p) path := by
  induction path with
  | nil => simp [answers, beforeWhile, afterAnything]
  | cons b path ih => simp [answers, beforeWhile, ih, afterAnything]

theorem beforeSlashes_answers (path : List UInt8) :
    beforeSlashes path (answers p path) = answers (fun s => (afterSlashes s).any p) path := by
  induction path with
  | nil => rfl
  | cons b path ih =>
    simp only [answers, beforeSlashes, ih, first_answers, afterSlashes]
    by_cases h : b = slash <;> simp [h]

theorem zipWith_answers (q : List UInt8 → Bool) (path : List UInt8) :
    List.zipWith (· || ·) (answers p path) (answers q path) =
      answers (fun s => p s || q s) path := by
  induction path with
  | nil => rfl
  | cons b path ih => simp [answers, ih]

theorem beforeLeading_answers (path : List UInt8) :
    beforeLeading path (answers p path) =
      answers (fun s => p s || (afterSlashes s).any p) path := by
  rw [beforeLeading, beforeSlashes_answers, zipWith_answers]

/-- Eating a byte and then the rest of a text is eating the text. -/
theorem any_eat_cons (a : UInt8) (front s : List UInt8) :
    (eat? (a :: front) s).toList.any p =
      (afterByte (a = ·) s).any fun rest => (eat? front rest).toList.any p := by
  cases s with
  | nil => rfl
  | cons b rest =>
    rw [eat?, afterByte]
    by_cases h : a = b <;> simp [h]

theorem beforeBytes_answers (front path : List UInt8) :
    beforeBytes front path (answers p path) =
      answers (fun s => (eat? front s).toList.any p) path := by
  induction front with
  | nil => simp [beforeBytes, eat?]
  | cons a front ih =>
    rw [beforeBytes, List.foldr_cons, ← beforeBytes, ih, beforeByte_answers]
    simp only [← any_eat_cons]

/-- Taking a slash first is taking a byte that is a slash. -/
theorem any_after_slash (next : List UInt8 → List (List UInt8)) (s : List UInt8) :
    ((eat? [slash] s).toList.flatMap next).any p =
      (afterByte (slash = ·) s).any fun rest => (next rest).any p := by
  cases s with
  | nil => rfl
  | cons b rest =>
    rw [eat?, afterByte]
    by_cases h : slash = b <;> simp [h, eat?]

/-- One pass works out the answers before a token. -/
theorem before_answers (token : Token) (path : List UInt8) :
    token.before path (answers p path) = answers (fun s => (token.after s).any p) path := by
  cases token with
  | literal c => exact beforeBytes_answers p _ path
  | one => exact beforeByte_answers p _ path
  | many => exact beforeLevel_answers p path
  | leading => simp [Token.before, Token.after, beforeLeading_answers]
  | trailing =>
    simp only [Token.before, Token.after, beforeAnything_answers, beforeByte_answers,
      any_after_slash]
  | between =>
    simp only [Token.before, Token.after, beforeLeading_answers, beforeByte_answers,
      any_after_slash, List.any_cons]
  | oneOf negated spans => exact beforeByte_answers p _ path
  | groupEnd => simp [Token.before, Token.after]

/-! ## All tokens -/

/-- The answers before a row of tokens. -/
def beforeAll (path : List UInt8) (tokens : List Token) : List Bool :=
  tokens.foldr (·.before path) (answers List.isEmpty path)

theorem beforeAll_eq (path : List UInt8) (tokens : List Token) :
    beforeAll path tokens = answers (eatsUp tokens) path := by
  induction tokens with
  | nil => rfl
  | cons token tokens ih =>
    rw [beforeAll, List.foldr_cons, ← beforeAll, ih, before_answers]
    rfl

/-- Whether a path matches. -/
def accepts : Glob → List UInt8 → Bool
  | .everything, _ => true
  | .row tokens, path => first (beforeAll path tokens)

@[simp] theorem accepts_everything (path : List UInt8) : accepts .everything path = true := rfl

@[simp] theorem accepts_row (tokens : List Token) (path : List UInt8) :
    accepts (.row tokens) path = eatsUp tokens path := by
  rw [accepts, beforeAll_eq, first_answers]

end Glob
end Pseudonym
