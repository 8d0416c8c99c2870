import Pseudonym.Json.Basic
import Pseudonym.Json.Quoted

/-!
# Printing values

Values are printed over several lines, every item and every member on a line of its own and two
spaces further in than the container around it.  An empty container is printed as two brackets
without anything between.
-/

namespace Pseudonym
namespace Json

/-- A new line at a depth. -/
def newLine (depth : Nat) : List Char :=
  '\n' :: List.replicate (2 * depth) ' '

mutual

/-- A value in a container at a depth. -/
def print (depth : Nat) : Json → List Char
  | .null => ['n', 'u', 'l', 'l']
  | .bool true => ['t', 'r', 'u', 'e']
  | .bool false => ['f', 'a', 'l', 's', 'e']
  | .number n => n.text
  | .string text => quote text
  | .array [] => ['[', ']']
  | .array (item :: items) =>
    '[' :: (newLine (depth + 1) ++ print (depth + 1) item ++ printItems (depth + 1) items ++
      newLine depth ++ [']'])
  | .object [] => ['\x7b', '\x7d']
  | .object ((key, value) :: members) =>
    '\x7b' :: (newLine (depth + 1) ++ quote key ++ [':', ' '] ++ print (depth + 1) value ++
      printMembers (depth + 1) members ++ newLine depth ++ ['\x7d'])

/-- The items of an array after the first. -/
def printItems (depth : Nat) : List Json → List Char
  | [] => []
  | item :: items => ',' :: (newLine depth ++ print depth item ++ printItems depth items)

/-- The members of an object after the first. -/
def printMembers (depth : Nat) : List (String × Json) → List Char
  | [] => []
  | (key, value) :: members =>
    ',' :: (newLine depth ++ quote key ++ [':', ' '] ++ print depth value ++
      printMembers depth members)

end

/-- The text of a value. -/
def pretty (value : Json) : String :=
  String.ofList (value.print 0)

end Json
end Pseudonym
