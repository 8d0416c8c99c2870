import Pseudonym.Retention.Pattern
import Pseudonym.Text.Lines

/-!
# Retention rules

Which namespaces keep their names is told by retention lists.  A list holds patterns with commas
between them; white space around a pattern does not count, and neither does an empty pattern.  The
patterns of all lists are tried in order, and the first one that a namespace matches decides.  A
namespace that matches none does not keep its name.
-/

namespace Pseudonym
namespace Retention

/-- The patterns of a retention list as they are written. -/
def writtenPatterns (list : String) : List (List Char) :=
  ((Text.pieces ',' list.toList).map Text.trim).filter (· ≠ [])

/-- Patterns in the order in which they are tried. -/
structure Rules where
  patterns : List Pattern
  deriving DecidableEq, Repr

namespace Rules

/-- The rules under which no namespace keeps its name. -/
def none : Rules := ⟨[]⟩

/-- Reads retention lists.  Of several patterns that cannot be read the first is reported. -/
def parse (lists : List String) : Except BadPattern Rules := do
  return ⟨← (lists.flatMap writtenPatterns).mapM Pattern.parse⟩

/-- The first pattern that a namespace matches. -/
def deciding? (rules : Rules) (namespaceName : String) : Option Pattern :=
  rules.patterns.find? (·.accepts namespaceName)

/-- Whether a namespace keeps its name. -/
def keeps (rules : Rules) (namespaceName : String) : Bool :=
  (rules.deciding? namespaceName).any (·.keeps)

end Rules

end Retention
end Pseudonym
