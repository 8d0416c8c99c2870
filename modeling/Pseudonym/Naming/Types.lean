import Pseudonym.Naming.Namespaces

/-!
# New type names

A type name is a prefix and a candidate.  The prefix is the new prefix of the namespace, or the
name of the enclosing type and a dollar sign.  Candidates come from the words and short names that
the options provide, and for numbered types from the numerals.  Each kind has a position of its
own below each prefix.

A candidate is refused if the fold of the whole name is reserved.  Distinct candidates below one
prefix have distinct folds, except for words that differ in case, so beyond the words no more are
refused than are reserved.
-/

namespace Pseudonym
namespace Registry

/-- Draws a name below a prefix from a sequence, one that is not reserved. -/
def drawTypeName (r : Registry) (candidates : Name.Sequence) (outer : String) (start : Nat) :
    Name.Sequence.Drawn :=
  candidates.draw (fun name => !r.isReserved (outer ++ name)) r.reserved.size start

/-- A name for a type below a prefix. -/
def ordinaryName (r : Registry) (outer : String) : String × Registry :=
  let drawn := r.drawTypeName r.options.typeSequence outer (r.typePositions.getD outer 0)
  let name := outer ++ drawn.name
  (name, { r.reserve name with typePositions := r.typePositions.insert outer drawn.next })

/-- A numbered name for a type below a prefix. -/
def numberedName (r : Registry) (outer : String) : String × Registry :=
  let drawn := r.drawTypeName .numerals outer (r.numeralPositions.getD outer 0)
  let name := outer ++ drawn.name
  (name, { r.reserve name with numeralPositions := r.numeralPositions.insert outer drawn.next })

/-- A new name for a type that lies in no other. -/
def nameTopLevel (r : Registry) (oldName : String) : String × Registry :=
  let (outer, r) := r.newPrefix (Name.namespacePrefix oldName)
  r.ordinaryName outer

/-- A new name for a type in the type that is now called `enclosing`. -/
def nameNested (r : Registry) (enclosing : String) : String × Registry :=
  r.ordinaryName (Name.prefixInside enclosing)

/-- A new numbered name for a type in the type that is now called `enclosing`. -/
def nameNumbered (r : Registry) (enclosing : String) : String × Registry :=
  r.numberedName (Name.prefixInside enclosing)

end Registry
end Pseudonym
