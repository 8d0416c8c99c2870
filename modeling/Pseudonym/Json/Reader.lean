import Pseudonym.Json.Token

/-!
# Reading values from tokens

A reader takes a value of some type from the front of the tokens and gives back the tokens behind
it.  Readers report the first fault that they come upon.  A value of the wrong shape is a fault
where it begins, so that what is wrong behind it does not matter, except that a wrong scalar must
at least be readable: a broken string in the place of a list is malformed before it is mismatched.

Records are read by name from an object or by position from an array.  Names that the record does
not have are passed over or refused, names that come twice are refused, and an array may stop early
if what is missing need not be there.

Values without a fixed shape are read as trees.  Reading a tree takes every scalar seriously and
limits how deep containers may lie in one another; passing a tree over does neither.
-/

namespace Pseudonym
namespace Json

/-- Takes a value from the front of the tokens. -/
abbrev Reader (α : Type) := List Token → Except Fault (α × List Token)

/-- The fault of tokens at which a value of another shape was expected. -/
def wrongShape : List Token → Fault
  | [] => .truncated
  | .closeObject :: _ => .malformed
  | .closeArray :: _ => .malformed
  | .colon :: _ => .malformed
  | .comma :: _ => .malformed
  | .number n :: _ => if n.inRange then .mismatched else .malformed
  | .string none :: _ => .malformed
  | .brokenString read _ :: _ => read
  | .broken read _ :: _ => read
  | _ => .mismatched

/-! ## Scalars -/

/-- Reads a string. -/
def readString : Reader String
  | .string (some text) :: rest => .ok (text, rest)
  | input => .error (wrongShape input)

/-- Reads a truth value. -/
def readBool : Reader Bool
  | .bool value :: rest => .ok (value, rest)
  | input => .error (wrongShape input)

/-- Reads a null. -/
def readNull : Reader Unit
  | .null :: rest => .ok ((), rest)
  | input => .error (wrongShape input)

/-- Reads a value that may be null. -/
def readOptional {α : Type} (read : Reader α) : Reader (Option α)
  | .null :: rest => .ok (none, rest)
  | input => do
    let (value, rest) ← read input
    return (some value, rest)

/-- What a word stands for among several things. -/
def meant {α : Type} (meaning : String → Option α) (word : String) : Except Fault α :=
  match meaning word with
  | some value => .ok value
  | none => .error .mismatched

/-- Reads a word that stands for one of several things. -/
def readWord {α : Type} (meaning : String → Option α) : Reader α := fun input => do
  let (word, rest) ← readString input
  return (← meant meaning word, rest)

/-! ## The marks of containers -/

/-- Reads the name of a member. -/
def readKey : Reader String
  | [] => .error .truncated
  | .string (some key) :: rest => .ok (key, rest)
  | .brokenString read _ :: _ => .error read
  | _ => .error .malformed

/-- Reads on to the next member of an object: its name, or nothing if the object ends.  `first`
tells that no member has been read yet. -/
def nextKey (first : Bool) : Reader (Option String)
  | [] => .error .truncated
  | .closeObject :: rest => .ok (none, rest)
  | input => do
    let behindComma ← match first, input with
      | true, input => pure input
      | false, .comma :: rest => pure rest
      | false, _ => throw .malformed
    let (key, rest) ← readKey behindComma
    return (some key, rest)

/-- Reads the colon behind the name of a member. -/
def readColon : List Token → Except Fault (List Token)
  | [] => .error .truncated
  | .colon :: rest => .ok rest
  | _ => .error .malformed

/-- Reads a case by its name: a word, or an object whose only member has that name and is null. -/
def readCase {α : Type} (meaning : String → Option α) : Reader α
  | [] => .error .truncated
  | .openObject :: rest => do
    let (name, rest) ← readKey rest
    let value ← meant meaning name
    let rest ← readColon rest
    let ((), rest) ← readNull rest
    match rest with
    | [] => throw .truncated
    | .closeObject :: rest => return (value, rest)
    | _ => throw .malformed
  | .string text :: rest => readWord meaning (.string text :: rest)
  | .brokenString read _ :: _ => .error read
  | _ => .error .malformed

/-- Reads on to the next item of an array, and tells whether there is one. -/
def nextItem (first : Bool) : Reader Bool
  | [] => .error .truncated
  | .closeArray :: rest => .ok (false, rest)
  | input =>
    match first, input with
    | true, input => .ok (true, input)
    | false, [.comma] => .error .truncated
    | false, .comma :: .closeArray :: _ => .error .malformed
    | false, .comma :: rest => .ok (true, rest)
    | false, _ => .error .malformed

/-! ## Lists -/

/-- Reads the remaining items of an array; `items` holds those before, last one first.  There are no
more items than tokens, which bounds the number of rounds. -/
def readItems {α : Type} (read : Reader α) :
    (rounds : Nat) → (first : Bool) → (items : List α) → Reader (List α)
  | 0, _, _, _ => .error .truncated
  | rounds + 1, first, items, input => do
    match ← nextItem first input with
    | (false, rest) => return (items.reverse, rest)
    | (true, rest) =>
      let (item, rest) ← read rest
      readItems read rounds false (item :: items) rest

/-- Reads an array of values of one type. -/
def readList {α : Type} (read : Reader α) : Reader (List α)
  | .openArray :: rest => readItems read (rest.length + 1) true [] rest
  | input => .error (wrongShape input)

/-! ## Trees -/

/-- A container that is being read. -/
inductive Frame where
  /-- An array and its items so far, last one first. -/
  | array (items : List Json)
  /-- An object, its members so far, last one first, and the name of the member at hand. -/
  | object (members : List (String × Json)) (key : String)

/-- What must come next in a tree. -/
inductive Expected where
  | value
  /-- A value, or the end of the array that has just begun. -/
  | firstItem
  /-- A name, or the end of the object that has just begun. -/
  | firstKey
  | key
  | colon
  /-- A comma, or the end of the container, after a value. -/
  | separator (last : Json)

/-- What a token leads to: the tree is complete, or something else must come. -/
inductive Progress where
  | complete (tree : Json)
  | expect (what : Expected) (frames : List Frame)

/-- The tree is complete if the value lies in no container. -/
def Progress.ofValue (value : Json) : List Frame → Progress
  | [] => .complete value
  | frames => .expect (.separator value) frames

/-- The number of containers that may not lie in one another. -/
def nestingLimit : Nat := 128

/-- How a tree is read: `careful` when its scalars count, and then inside how many containers. -/
inductive Attention where
  | careful (depth : Nat)
  | passing
  deriving DecidableEq, Repr

/-- Begins a container. -/
def openFrame (attention : Attention) (what : Expected) (frame : Frame) (frames : List Frame) :
    Except Fault Progress :=
  match attention with
  | .careful depth =>
    if depth + frames.length + 1 < nestingLimit then .ok (.expect what (frame :: frames))
    else .error .malformed
  | .passing => .ok (.expect what (frame :: frames))

/-- Takes in a token where a value must come. -/
def treeValue (attention : Attention) (frames : List Frame) : Token → Except Fault Progress
  | .openObject => openFrame attention .firstKey (.object [] "") frames
  | .openArray => openFrame attention .firstItem (.array []) frames
  | .null => .ok (.ofValue .null frames)
  | .bool value => .ok (.ofValue (.bool value) frames)
  | .number n =>
    if attention = .passing || n.inRange then .ok (.ofValue (.number n) frames)
    else .error .malformed
  | .string (some text) => .ok (.ofValue (.string text) frames)
  | .string none =>
    if attention = .passing then .ok (.ofValue (.string "") frames) else .error .malformed
  | .brokenString read passed => .error (if attention = .passing then passed else read)
  | .broken read passed => .error (if attention = .passing then passed else read)
  | _ => .error .malformed

/-- Takes in a token where the name of a member must come. -/
def treeKey (attention : Attention) (members : List (String × Json)) (frames : List Frame) :
    Token → Except Fault Progress
  | .string (some key) => .ok (.expect .colon (.object members key :: frames))
  | .string none =>
    if attention = .passing then .ok (.expect .colon (.object members "" :: frames))
    else .error .malformed
  | .brokenString read passed => .error (if attention = .passing then passed else read)
  | _ => .error .malformed

/-- Takes in one token of a tree. -/
def treeStep (attention : Attention) (what : Expected) (frames : List Frame) (token : Token) :
    Except Fault Progress :=
  match what, frames with
  | .value, _ => treeValue attention frames token
  | .firstItem, .array items :: outer =>
    if token = .closeArray then .ok (.ofValue (.array items.reverse) outer)
    else treeValue attention frames token
  | .firstKey, .object members _ :: outer =>
    if token = .closeObject then .ok (.ofValue (.object members.reverse) outer)
    else treeKey attention members outer token
  | .key, .object members _ :: outer => treeKey attention members outer token
  | .colon, _ => if token = .colon then .ok (.expect .value frames) else .error .malformed
  | .separator last, .array items :: outer =>
    if token = .comma then .ok (.expect .value (.array (last :: items) :: outer))
    else if token = .closeArray then .ok (.ofValue (.array (last :: items).reverse) outer)
    else .error .malformed
  | .separator last, .object members key :: outer =>
    if token = .comma then .ok (.expect .key (.object ((key, last) :: members) key :: outer))
    else if token = .closeObject then
      .ok (.ofValue (.object ((key, last) :: members).reverse) outer)
    else .error .malformed
  | _, _ => .error .malformed

/-- Reads the rest of a tree. -/
def readTreeFrom (attention : Attention) (what : Expected) (frames : List Frame) : Reader Json
  | [] => .error .truncated
  | token :: rest =>
    match treeStep attention what frames token with
    | .error fault => .error fault
    | .ok (.complete tree) => .ok (tree, rest)
    | .ok (.expect what frames) => readTreeFrom attention what frames rest

/-- Reads a tree. -/
def readTree (attention : Attention) : Reader Json :=
  readTreeFrom attention .value []

/-! ## Records -/

/-- Reads the remaining members of an object.  `member` says how the value of a member is read, once
its name is known, or what is wrong with the name. -/
def readMembers {σ : Type} (member : σ → String → Except Fault (Reader σ)) :
    (rounds : Nat) → (first : Bool) → σ → Reader σ
  | 0, _, _, _ => .error .truncated
  | rounds + 1, first, record, input => do
    match ← nextKey first input with
    | (none, rest) => return (record, rest)
    | (some key, rest) =>
      let read ← member record key
      let rest ← readColon rest
      let (record, rest) ← read rest
      readMembers member rounds false record rest

/-- A field of a record: its name, and how its value is read into the record. -/
structure Field (σ : Type) where
  key : String
  read : σ → Reader σ

/-- A field whose value is stored by `store`. -/
def Field.of {σ α : Type} (key : String) (read : Reader α) (store : σ → α → σ) : Field σ where
  key := key
  read record input := do
    let (value, rest) ← read input
    return (store record value, rest)

/-- The shape of a record: its fields in order, the record before anything is read, whether other
names are refused, and what comes of the record in the end, which is nothing if a field is missing
that must be there. -/
structure Shape (σ α : Type) where
  fields : List (Field σ)
  blank : σ
  closed : Bool
  finish : σ → Option α

namespace Shape

variable {σ α : Type}

/-- The end of reading a record. -/
def complete (shape : Shape σ α) : σ × List Token → Except Fault (α × List Token)
  | (record, rest) =>
    match shape.finish record with
    | some value => .ok (value, rest)
    | none => .error .mismatched

/-- How the member with a name is read into a record, of which some fields have been read. -/
def member (shape : Shape σ α) (read : List String × σ) (key : String) :
    Except Fault (Reader (List String × σ)) :=
  match shape.fields.find? (·.key = key) with
  | none =>
    if shape.closed then .error .mismatched
    else .ok fun input => do
      let (_, rest) ← readTree .passing input
      return (read, rest)
  | some field =>
    if key ∈ read.1 then .error .mismatched
    else .ok fun input => do
      let (record, rest) ← field.read read.2 input
      return ((key :: read.1, record), rest)

/-- Reads the fields of a record by position. -/
def readPositions (first : Bool) : List (Field σ) → σ → Reader σ
  | [], record, input =>
    match input with
    | [] => .error .truncated
    | .closeArray :: rest => .ok (record, rest)
    | _ => .error .malformed
  | field :: fields, record, input => do
    match ← nextItem first input with
    | (false, rest) => return (record, rest)
    | (true, rest) =>
      let (record, rest) ← field.read record rest
      readPositions false fields record rest

/-- Reads a record. -/
def read (shape : Shape σ α) : Reader α
  | .openObject :: rest => do
    let ((_, record), rest) ←
      readMembers shape.member (rest.length + 1) true ([], shape.blank) rest
    shape.complete (record, rest)
  | .openArray :: rest => do
    shape.complete (← readPositions true shape.fields shape.blank rest)
  | input => .error (wrongShape input)

end Shape

/-! ## Texts -/

/-- Reads a text that holds one value and nothing behind it. -/
def readText {α : Type} (read : Reader α) (text : String) : Except Fault α := do
  let (value, rest) ← read (tokens text)
  if rest.isEmpty then return value else throw .malformed

end Json
end Pseudonym
