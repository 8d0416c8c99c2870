import Pseudonym.Text.Lines
import Pseudonym.Text.Lowercase

/-!
# Log formats

What the command reports about its work can be laid out as plain lines, as a tree or as one JSON
object a line.  The format is chosen by name; white space around the name and its case do not
matter, and a name that is not known means plain lines.
-/

namespace Pseudonym

/-- The layouts of the log. -/
inductive LogFormat where
  | text
  | tree
  | json
  deriving DecidableEq, Repr

/-- The layout with a name. -/
def LogFormat.named (name : String) : LogFormat :=
  let folded := Text.lowercase (String.ofList (Text.trim name.toList))
  if folded = "tree" then .tree
  else if folded = "json" then .json
  else .text

end Pseudonym
