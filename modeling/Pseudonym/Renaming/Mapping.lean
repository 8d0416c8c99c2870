import Pseudonym.Model.Arena

/-!
# The mapping

A mapping says what has become of the names of a program.  It has an entry for every type of the
program, sorted by old name, with the members whose names have changed and the metadata that was
named, and after them the modules that were named.  Since the entries are sorted, a type is found
among them by halving.

In its text a type is a line `old -> new:`.  Below it, indented by four columns, come its members
as `descriptor old -> new` and its metadata as comments.
-/

namespace Pseudonym
namespace Mapping

/-- An old name and the new one. -/
structure Entry where
  oldName : String
  newName : String
  deriving DecidableEq, Repr

/-- A member with a changed name. -/
structure MemberEntry where
  kind : MemberKind
  descriptor : String
  oldName : String
  newName : String
  deriving DecidableEq, Repr

/-- A type with what was renamed in it. -/
structure TypeEntry where
  oldName : String
  newName : String
  members : List MemberEntry
  typeAliases : List Entry
  properties : List Entry
  deriving DecidableEq, Repr

end Mapping

/-- What has become of the names of a program. -/
structure Mapping where
  types : List Mapping.TypeEntry
  modules : List Mapping.Entry
  deriving DecidableEq, Repr

namespace Mapping

/-! ## Collecting -/

/-- The entry of a thing, if it was named. -/
def Entry.of? (n : Named) : Option Entry :=
  n.newName.map (⟨n.name, ·⟩)

/-- The entry of a member, if its name has changed. -/
def MemberEntry.of? (m : Member) : Option MemberEntry :=
  if m.currentName = m.name then none
  else some ⟨m.kind, m.descriptor, m.name, m.currentName⟩

/-- The entry of a type. -/
def TypeEntry.of (t : ProgramType) : TypeEntry where
  oldName := t.name
  newName := t.currentName
  members := t.members.filterMap MemberEntry.of?
  typeAliases := (t.declarations?.map (·.typeAliases)).getD [] |>.filterMap Entry.of?
  properties := (t.declarations?.map (·.properties)).getD [] |>.filterMap Entry.of?

/-- The mapping of a model. -/
def ofModel (m : Model) : Mapping where
  types := (m.programTypes.map TypeEntry.of).mergeSort fun a b => a.oldName ≤ b.oldName
  modules := m.modules.filterMap Entry.of?

/-! ## Looking up -/

/-- Halves a stretch of entries until one is left: the last whose old name does not come after a
name, if there is one. -/
def narrow (entries : Array TypeEntry) (oldName : String) (first count : Nat) : Nat :=
  if count ≤ 1 then first
  else
    let half := count / 2
    let isAfter := entries[first + half]?.any (oldName < ·.oldName)
    narrow entries oldName (if isAfter then first else first + half) (count - half)
termination_by count

/-- The new name of a type of the program. -/
def typeName (mapping : Mapping) (oldName : String) : Option String :=
  let entries := mapping.types.toArray
  (entries[narrow entries oldName 0 entries.size]?.filter (·.oldName = oldName)).map (·.newName)

/-! ## Printing -/

/-- The two names of an entry. -/
def arrow (oldName newName : String) : String := oldName ++ " -> " ++ newName

def MemberEntry.line (e : MemberEntry) : String :=
  "    " ++ e.descriptor ++ " " ++ arrow e.oldName e.newName

/-- A comment about a thing of some sort. -/
def Entry.comment (sort : String) (e : Entry) : String :=
  "# " ++ sort ++ " " ++ arrow e.oldName e.newName

/-- The lines of a type. -/
def TypeEntry.lines (e : TypeEntry) : List String :=
  (arrow e.oldName e.newName ++ ":") :: (e.members.map MemberEntry.line ++
    e.typeAliases.map (fun a => "    " ++ a.comment "typealias") ++
    e.properties.map fun p => "    " ++ p.comment "property")

/-- The lines of a mapping. -/
def lines (mapping : Mapping) : List String :=
  mapping.types.flatMap TypeEntry.lines ++ mapping.modules.map (Entry.comment "module")

/-- The text of a mapping. -/
def print (mapping : Mapping) : String :=
  String.join (mapping.lines.map (· ++ "\n"))

end Mapping
end Pseudonym
