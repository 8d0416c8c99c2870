import Pseudonym.Text.Lowercase
import Pseudonym.Unicode.Uppercase

/-!
# Comparing names without regard to case

File systems that ignore case cannot hold two names that differ in case alone.  Unless names of
mixed case are allowed, two names are therefore compared by their folds.  The fold of a name is the
name in small letters; a name without a character of the `Uppercase` property is its own fold, so a
title-case digraph is folded only in the company of a capital.
-/

namespace Pseudonym
namespace Name

/-- The form in which names are compared for uniqueness. -/
def fold (mixedCase : Bool) (name : String) : String :=
  if mixedCase || !name.toList.any Unicode.isUppercase then name else Text.lowercase name

@[simp] theorem fold_mixed (name : String) : fold true name = name := rfl

end Name
end Pseudonym
