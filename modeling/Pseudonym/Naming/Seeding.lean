import Pseudonym.Model.Arena
import Pseudonym.Naming.Registry

/-!
# What a model fixes beforehand

A registry begins with the names that are settled: those of the types of the program that have been
given one, and those of all library types, in this order.  They are reserved.

A type that is settled also settles its namespace, for the other types of the namespace have to
stay with it.  Where its namespace goes, the namespaces around it go as well, level by level, as
long as there is a level on both sides; but under flattening and repackaging each namespace goes
its own way.  Repackaging with access allowed takes no regard of settled types at all.  If two of
them send one namespace to different places, the later one has it.
-/

namespace Pseudonym

/-- The names that are settled, each as an old name and the name to be kept. -/
def Model.settledNames (m : Model) : List (String × String) :=
  (m.programTypes.filterMap fun t => t.newName.map (t.name, ·)) ++
    m.libraryTypes.map fun t => (t.name, t.currentName)

namespace NamingOptions

/-- Whether the types of a namespace follow a settled one. -/
def follows (o : NamingOptions) : Bool :=
  o.repackage.isNone || !o.allowAccess

/-- Whether the namespaces around the namespace of a settled type follow it as well. -/
def followsOutwards (o : NamingOptions) : Bool :=
  o.repackage.isNone && o.flatten.isNone

/-- The prefixes that a settled type settles, with their new ones, the longest first. -/
def settledPrefixes (o : NamingOptions) (name newName : String) : List (String × String) :=
  if o.follows then
    let outer := Name.namespacePrefix name
    let newOuter := Name.namespacePrefix newName
    let around := (Name.enclosingPrefixes outer).zip (Name.enclosingPrefixes newOuter)
    (outer, newOuter) ::
      if o.followsOutwards then around.takeWhile fun (p, q) => p ≠ "" && q ≠ "" else []
  else []

end NamingOptions

namespace Registry

/-- Takes a settled name into account. -/
def settle (r : Registry) (name newName : String) : Registry :=
  (r.options.settledPrefixes name newName).foldl (fun r (p, q) => r.record p q) (r.reserve newName)

/-- The registry at the beginning of a pass over a model. -/
def ofModel (m : Model) (options : NamingOptions) (memberSequence : Name.Sequence) : Registry :=
  m.settledNames.foldl (fun r (name, newName) => r.settle name newName)
    (blank options memberSequence)

end Registry
end Pseudonym
