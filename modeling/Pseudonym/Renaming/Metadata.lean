import Pseudonym.Naming.Scopes
import Pseudonym.Renaming.Types

/-!
# Renaming metadata

Modules, and in each type with declarations the type aliases and the properties, are named in a
scope for each.  Old names do not count: every list gets the first names of the member sequence in
order.
-/

namespace Pseudonym

namespace Registry

/-- Names things one after the other in the scope that is open. -/
def nameEach (scope : Scope) :
    (r : Registry) → List Named → Except Misuse (List Named × Registry)
  | r, [] => .ok ([], r)
  | r, item :: rest => do
    let (name, r) ← r.nextInScope scope
    let (rest, r) ← r.nameEach scope rest
    return ({ item with newName := some name } :: rest, r)

/-- Names things in a scope of their own. -/
def nameInScope (r : Registry) (scope : Scope) (items : List Named) :
    Except Misuse (List Named × Registry) := do
  let r ← r.enterScope scope
  let (items, r) ← r.nameEach scope items
  return (items, ← r.leaveScope scope)

/-- Names the type aliases of a list of declarations. -/
def nameTypeAliases (r : Registry) (d : Declarations) :
    Except Misuse (Declarations × Registry) := do
  let (typeAliases, r) ← r.nameInScope .typeAlias d.typeAliases
  return ({ d with typeAliases }, r)

/-- Names the properties of a list of declarations. -/
def nameProperties (r : Registry) (d : Declarations) :
    Except Misuse (Declarations × Registry) := do
  let (properties, r) ← r.nameInScope .property d.properties
  return ({ d with properties }, r)

/-- Names type aliases and properties. -/
def nameDeclarations (r : Registry) (d : Declarations) :
    Except Misuse (Declarations × Registry) := do
  let (d, r) ← r.nameTypeAliases d
  r.nameProperties d

end Registry

/-- The type with other declarations in its metadata. -/
def ProgramType.withDeclarations (t : ProgramType) (d : Declarations) : ProgramType :=
  { t with metadata := t.metadata.map (·.withDeclarations d) }

namespace Renaming

/-- Names the modules. -/
def renameModules (s : Renaming) : Except Misuse Renaming := do
  let (modules, registry) ← s.registry.nameInScope .module s.model.modules
  return ⟨registry, { s.model with modules }⟩

/-- Changes the declarations of one type.  Types without any are left alone. -/
def renameDeclarationsOf (s : Renaming)
    (change : Registry → Declarations → Except Misuse (Declarations × Registry)) (id : TypeId) :
    Except Misuse Renaming := do
  match ← s.model.get id with
  | .library _ => return s
  | .program t =>
    match t.declarations? with
    | none => return s
    | some d =>
      let (d, registry) ← change s.registry d
      return ⟨registry, s.model.replace id (t.withDeclarations d)⟩

/-- Names the modules and the declarations of all types. -/
def renameMetadata (s : Renaming) : Except Misuse Renaming := do
  let s ← s.renameModules
  s.model.programIds.foldlM (renameDeclarationsOf · Registry.nameDeclarations) s

end Renaming
end Pseudonym
