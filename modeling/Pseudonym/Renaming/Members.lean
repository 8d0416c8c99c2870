import Pseudonym.Naming.Scopes
import Pseudonym.Renaming.Types

/-!
# Renaming members

Members of a type can share a name if something else tells them apart: a field from a method always,
and a method from another by its parameters.  Overloading aggressively, everything in the descriptor
tells them apart.  Members that nothing tells apart make up a group.

The members that must keep their names come first, whatever their place.  Every other takes, in
order, the first name that is not in use in its group.
-/

namespace Pseudonym

/-- The parameters in a method descriptor: all of it through the first closing parenthesis. -/
def parameterPart (descriptor : String) : String :=
  let cs := descriptor.toList
  let inside := cs.takeWhile (· ≠ ')')
  String.ofList (inside ++ (cs.drop inside.length).take 1)

namespace Member

/-- The part of the descriptor that tells a member from others of its kind. -/
def signature (overload : Bool) (m : Member) : String :=
  if overload then m.descriptor
  else match m.kind with
    | .field => ""
    | .method => parameterPart m.descriptor

/-- Whether two members cannot share a name. -/
def sameGroup (overload : Bool) (a b : Member) : Bool :=
  a.kind = b.kind && a.signature overload = b.signature overload

/-- The names in use among the members in the group of a member. -/
def namesAround (overload : Bool) (others : List Member) (m : Member) : Std.ExtTreeSet String :=
  .ofList ((others.filter (m.sameGroup overload)).map currentName)

end Member

namespace Registry

/-- Names the members of a list that are not settled.  `settled` holds the members whose names are
in use. -/
def nameMembers (overload : Bool) :
    (r : Registry) → (settled members : List Member) → List Member × Registry
  | r, _, [] => ([], r)
  | r, settled, m :: rest =>
    if m.isSettled then
      let (rest, r) := r.nameMembers overload settled rest
      (m :: rest, r)
    else
      let (name, r) := r.nameMember (m.namesAround overload settled)
      let m := { m with newName := some name }
      let (rest, r) := r.nameMembers overload (m :: settled) rest
      (m :: rest, r)

/-- Names the members of a type. -/
def renameMembers (r : Registry) (overload : Bool) (t : ProgramType) : ProgramType × Registry :=
  let (members, r) := r.nameMembers overload (t.members.filter (·.isSettled)) t.members
  ({ t with members }, r)

end Registry

namespace Renaming

/-- Names the members of one type.  Library types have none. -/
def renameMembersOf (s : Renaming) (overload : Bool) (id : TypeId) : Except Misuse Renaming := do
  match ← s.model.get id with
  | .library _ => return s
  | .program t =>
    let (t, registry) := s.registry.renameMembers overload t
    return ⟨registry, s.model.replace id t⟩

/-- Names the members of all types. -/
def renameMembers (s : Renaming) (overload : Bool) : Except Misuse Renaming :=
  s.model.programIds.foldlM (renameMembersOf · overload) s

end Renaming
end Pseudonym
