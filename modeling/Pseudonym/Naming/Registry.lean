import Std.Data.ExtTreeMap
import Std.Data.ExtTreeSet
import Pseudonym.Misuse
import Pseudonym.Name.Fold
import Pseudonym.Name.Sequence
import Pseudonym.Name.Syntax
import Pseudonym.Retention.Rules

/-!
# The registry of names

The registry is what a renaming pass knows: which type names are given away, where namespaces go,
and how far each sequence of candidates has been followed.  Every new name is asked of it, and every
answer changes it.

It holds

* the folds of all type names that are settled or given away (`reserved`);
* the new prefix of every namespace that has one (`prefixes`), and every prefix that a namespace was
  ever given (`taken`), which a later entry for the same namespace does not free again;
* for every new prefix the positions in the sequences below it: that of namespace segments, that of
  ordinary type names and that of numbers;
* the sequence of member names with its position, and the scope of metadata that is open.

A position only ever grows, and everything before it has been given away or was refused.  Asking
from the start each time would give the same names.  Member names are different: the sequence
restarts with every member and with every scope.
-/

namespace Pseudonym

/-- How types and namespaces are named. -/
structure NamingOptions where
  /-- Words for simple type names. -/
  typeWords : Option Name.WordList
  /-- Words for the segments of namespaces. -/
  namespaceWords : Option Name.WordList
  /-- Whether names of types may differ in case alone. -/
  mixedCase : Bool
  /-- Which namespaces keep their names. -/
  keep : Retention.Rules
  /-- The namespace under which all renamed namespaces lie side by side. -/
  flatten : Option String
  /-- The namespace into which all renamed types go. -/
  repackage : Option String
  /-- Whether types may leave a namespace that other types cannot leave. -/
  allowAccess : Bool

namespace NamingOptions

/-- The options under which nothing is asked for. -/
def plain : NamingOptions := ⟨none, none, false, .none, none, none, false⟩

instance : Inhabited NamingOptions := ⟨plain⟩

/-- The prefix of the namespace to flatten under. -/
def flattenTarget? (o : NamingOptions) : Option String :=
  o.flatten.map Name.prefixOf

/-- The prefix of the namespace to repackage into. -/
def repackageTarget? (o : NamingOptions) : Option String :=
  o.repackage.map Name.prefixOf

/-- The candidates for simple names of types. -/
def typeSequence (o : NamingOptions) : Name.Sequence :=
  .withWords o.typeWords o.mixedCase

/-- The candidates for segments of namespaces. -/
def segmentSequence (o : NamingOptions) : Name.Sequence :=
  .withWords o.namespaceWords o.mixedCase

/-- Whether a namespace prefix is kept. -/
def keepsPrefix (o : NamingOptions) (outer : String) : Bool :=
  o.keep.keeps (Name.namespaceOf outer)

end NamingOptions

/-- The position reached below each prefix; zero where nothing has been drawn. -/
abbrev Positions := Std.ExtTreeMap String Nat

/-- All that is known about names in the course of a pass. -/
structure Registry where
  options : NamingOptions
  memberSequence : Name.Sequence
  memberPosition : Nat
  currentScope : Option Scope
  reserved : Std.ExtTreeSet String
  prefixes : Std.ExtTreeMap String String
  taken : Std.ExtTreeSet String
  segmentPositions : Positions
  typePositions : Positions
  numeralPositions : Positions

namespace Registry

/-- The form in which a type name is reserved. -/
def fold (r : Registry) (name : String) : String :=
  Name.fold r.options.mixedCase name

/-- Whether a type name can no longer be given away. -/
def isReserved (r : Registry) (name : String) : Bool :=
  r.reserved.contains (r.fold name)

/-- Reserves a type name. -/
def reserve (r : Registry) (name : String) : Registry :=
  { r with reserved := r.reserved.insert (r.fold name) }

@[simp] theorem isReserved_reserve (r : Registry) (name other : String) :
    (r.reserve name).isReserved other ↔ r.fold name = r.fold other ∨ r.isReserved other := by
  simp [reserve, isReserved, fold, Std.ExtTreeSet.contains_insert]

/-- The new prefix of a namespace prefix, if it has one. -/
def newPrefix? (r : Registry) (outer : String) : Option String :=
  r.prefixes[outer]?

/-- Records the new prefix of a namespace prefix, in the place of an earlier one. -/
def record (r : Registry) (outer newOuter : String) : Registry :=
  { r with
    prefixes := r.prefixes.insert outer newOuter
    taken := r.taken.insert newOuter }

@[simp] theorem newPrefix?_record (r : Registry) (outer newOuter other : String) :
    (r.record outer newOuter).newPrefix? other =
      if outer = other then some newOuter else r.newPrefix? other := by
  simp [record, newPrefix?, Std.ExtTreeMap.getElem?_insert]

/-- A recorded prefix stays taken, whatever is recorded after it. -/
@[simp] theorem mem_taken_record (r : Registry) (outer newOuter other : String) :
    other ∈ (r.record outer newOuter).taken ↔ newOuter = other ∨ other ∈ r.taken := by
  simp [record, Std.ExtTreeSet.mem_insert]

/-- The registry that knows only the root namespace, which stays where it is. -/
def blank (options : NamingOptions) (memberSequence : Name.Sequence) : Registry :=
  record
    { options, memberSequence
      memberPosition := 0
      currentScope := none
      reserved := ∅
      prefixes := ∅
      taken := ∅
      segmentPositions := ∅
      typePositions := ∅
      numeralPositions := ∅ }
    "" ""

theorem newPrefix?_blank (options : NamingOptions) (memberSequence : Name.Sequence)
    (outer : String) :
    (blank options memberSequence).newPrefix? outer = if "" = outer then some "" else none := by
  simp [blank, newPrefix?, record, Std.ExtTreeMap.getElem?_insert]

end Registry

end Pseudonym
