import Pseudonym.Json.Basic

/-!
# Records in trees

Some records are read from a tree rather than from a text, because their shape is known only after
part of them has been read.  As in a text, a record is an object with named members or an array of
its fields in order; names that the record does not have are passed over, and a name that comes
twice spoils the record.  A tree that does not have the right shape has no fields at all.
-/

namespace Pseudonym
namespace Json

/-- The values of the fields of a record, in the order of their names, as far as they are there. -/
def fields? (keys : List String) : Json → Option (List (Option Json))
  | .object members =>
    if keys.any fun key => 1 < members.countP (·.1 = key) then none
    else some (keys.map fun key => members.lookup key)
  | .array items =>
    if items.length ≤ keys.length then some (keys.zipIdx.map fun (_, i) => items[i]?) else none
  | _ => none

/-- The text of a string. -/
def text? : Json → Option String
  | .string text => some text
  | _ => none

/-- The text of a string that may be null or missing. -/
def optionalText? : Option Json → Option (Option String)
  | none => some none
  | some .null => some none
  | some (.string text) => some (some text)
  | some _ => none

/-- The values in an array, which may be missing. -/
def optionalList? {α : Type} (item : Json → Option α) : Option Json → Option (List α)
  | none => some []
  | some (.array items) => items.mapM item
  | some _ => none

/-- The name of the one case that a tree selects: a string, or an object whose only member has that
name and nothing to say. -/
def case? : Json → Option String
  | .string name => some name
  | .object [(name, .null)] => some name
  | .object [(name, .object [])] => some name
  | _ => none

end Json
end Pseudonym
