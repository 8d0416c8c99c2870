import Pseudonym.Naming.Registry

/-!
# New namespaces

A namespace prefix that has a new prefix keeps it.  Any other is decided in this order.

* Where the retention rules match, the prefix stays as it is.
* Where types are repackaged, the prefix is that of the common namespace.
* Otherwise the prefix gets a segment of its own, below the common prefix if namespaces are
  flattened, and else below the new prefix of its parent, which is decided first.

Only the last is recorded: the other two are decided the same way every time.  A segment is the
first candidate whose prefix no namespace was ever given.  There are no more of those than
prefixes taken.
-/

namespace Pseudonym
namespace Registry

/-- Draws a prefix below a new prefix, one that no namespace was given. -/
def drawPrefix (r : Registry) (newParent : String) : String × Registry :=
  let extended (segment : String) := newParent ++ segment ++ "."
  let drawn := r.options.segmentSequence.draw (fun segment => !r.taken.contains (extended segment))
    r.taken.size (r.segmentPositions.getD newParent 0)
  (extended drawn.name,
    { r with segmentPositions := r.segmentPositions.insert newParent drawn.next })

/-- Gives a namespace prefix a new prefix below a new parent. -/
def createPrefix (r : Registry) (outer newParent : String) : String × Registry :=
  let (newOuter, r) := r.drawPrefix newParent
  (newOuter, r.record outer newOuter)

/-- The new prefix of the first of some namespace prefixes, each followed by its parent.  The root,
which comes last, always has one. -/
def resolve (r : Registry) : List String → String × Registry
  | [] => ("", r)
  | outer :: parents =>
    match r.newPrefix? outer with
    | some newOuter => (newOuter, r)
    | none =>
      if r.options.keepsPrefix outer then (outer, r)
      else match r.options.repackageTarget? with
        | some target => (target, r)
        | none => match r.options.flattenTarget? with
          | some target => r.createPrefix outer target
          | none =>
            let (newParent, r) := r.resolve parents
            r.createPrefix outer newParent

/-- The new prefix of a namespace prefix. -/
def newPrefix (r : Registry) (outer : String) : String × Registry :=
  r.resolve (outer :: Name.enclosingPrefixes outer)

end Registry
end Pseudonym
