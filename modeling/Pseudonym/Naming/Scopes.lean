import Pseudonym.Naming.Registry

/-!
# Names of members and metadata

Members, modules, type aliases and properties draw from one sequence.  A member takes the first
name that is not in use around it, and the sequence restarts each time.  The names of metadata are
drawn one after the other inside a scope, and the sequence restarts when the scope is opened.  One
scope can be open at a time, and names are given only in the scope that they are for.
-/

namespace Pseudonym
namespace Registry

/-- The first member name that is not in use. -/
def nameMember (r : Registry) (used : Std.ExtTreeSet String) : String × Registry :=
  let drawn := r.memberSequence.draw (fun name => !used.contains name) used.size 0
  (drawn.name, { r with memberPosition := drawn.next })

/-- Opens a scope. -/
def enterScope (r : Registry) (scope : Scope) : Except Misuse Registry :=
  match r.currentScope with
  | some current => .error (.scopeOpen scope current)
  | none => .ok { r with currentScope := some scope, memberPosition := 0 }

/-- Closes a scope. -/
def leaveScope (r : Registry) (scope : Scope) : Except Misuse Registry :=
  if r.currentScope = some scope then .ok { r with currentScope := none } else .error .otherScope

/-- The next name of a scope. -/
def nextInScope (r : Registry) (scope : Scope) : Except Misuse (String × Registry) :=
  if r.currentScope = some scope then
    let drawn := r.memberSequence.next r.memberPosition
    .ok (drawn.name, { r with memberPosition := drawn.next })
  else .error (.outsideScope scope)

end Registry
end Pseudonym
