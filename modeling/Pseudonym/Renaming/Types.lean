import Pseudonym.Naming.Types
import Pseudonym.Renaming.Enclosing

/-!
# Renaming types

A pass works on a registry and a model together.  Renaming a type makes sure that it has its new
name: library types and types with a new name are left alone, and for any other its chain of
enclosing types is named from the outside in.  A type with a link is named below the current name
of its enclosing type, and a type without one below the new prefix of its namespace.
-/

namespace Pseudonym

/-- The state of a renaming pass. -/
structure Renaming where
  registry : Registry
  model : Model

namespace Renaming

/-- Asks the registry for the name of a type on the way. -/
def nameFor (s : Renaming) (stage : Stage) : Except Misuse (String × Registry) :=
  match stage.link with
  | none => return s.registry.nameTopLevel stage.name
  | some link => do
    let enclosing ← s.model.currentName link.outer
    return if link.numbered then s.registry.nameNumbered enclosing
      else s.registry.nameNested enclosing

/-- Names a type on the way. -/
def nameStage (s : Renaming) (stage : Stage) : Except Misuse Renaming := do
  let (name, registry) ← s.nameFor stage
  return ⟨registry, ← s.model.assign stage.id name⟩

/-- Makes sure that a type has its new name. -/
def renameType (s : Renaming) (adaptMetadata : Bool) (id : TypeId) : Except Misuse Renaming := do
  let _ ← s.model.get id
  match s.model.unnamed? id with
  | none => return s
  | some t => (s.model.chain adaptMetadata id t).foldlM nameStage s

/-- Makes sure that a type has its new name, and gives the name. -/
def ensureName (s : Renaming) (adaptMetadata : Bool) (id : TypeId) :
    Except Misuse (String × Renaming) := do
  let s ← s.renameType adaptMetadata id
  return (← s.model.currentName id, s)

/-- Names all types of the program. -/
def renameTypes (s : Renaming) (adaptMetadata : Bool) : Except Misuse Renaming :=
  s.model.programIds.foldlM (renameType · adaptMetadata) s

end Renaming
end Pseudonym
