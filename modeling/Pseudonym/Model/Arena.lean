import Pseudonym.Misuse
import Pseudonym.Model.Basic

/-!
# Program models

A model holds all types of a program and of its libraries, and its modules.  A type is known by its
number, which is its place in the order in which the types were added, and by its old name.
Old names are not empty and no two types share one: `Model.add` refuses what would break this.

The file form of a model lists the types of the program and those of the libraries apart.  Making a
model from it numbers the former before the latter, whatever their numbers were before.
-/

namespace Pseudonym

/-- The number of a type. -/
abbrev TypeId := Nat

/-- All types and modules of a program. -/
structure Model where
  types : Array KnownType
  modules : List Named
  deriving DecidableEq, Repr

/-- Why a type cannot be added. -/
inductive ModelError where
  | duplicateType (name : String)
  | emptyTypeName
  deriving DecidableEq, Repr

/-- The error in words. -/
def ModelError.message : ModelError → String
  | .duplicateType name => "type `" ++ name ++ "` is defined more than once"
  | .emptyTypeName => "type names must not be empty"

/-- The form in which models are stored. -/
structure ModelFile where
  program : List ProgramType
  library : List Named
  modules : List Named
  deriving DecidableEq, Repr

namespace Model

/-- The model without types. -/
def empty : Model := ⟨#[], []⟩

instance : Inhabited Model := ⟨empty⟩

/-- The number of types. -/
def size (m : Model) : Nat := m.types.size

/-! ## Looking up -/

/-- The number of the type with an old name. -/
def lookup (m : Model) (name : String) : Option TypeId :=
  m.types.findIdx? (·.name = name)

/-- The type with a number. -/
def get (m : Model) (id : TypeId) : Except Misuse KnownType :=
  match m.types[id]? with
  | some d => .ok d
  | none => .error (.unknownType id)

/-- The numbers of all types in order. -/
def ids (m : Model) : List TypeId := List.range m.size

/-- The numbers of the types of the program. -/
def programIds (m : Model) : List TypeId :=
  m.ids.filter fun id => m.types[id]?.any (!·.isLibrary)

/-- The numbers of the types of the libraries. -/
def libraryIds (m : Model) : List TypeId :=
  m.ids.filter fun id => m.types[id]?.any (·.isLibrary)

/-- The types of the program in order. -/
def programTypes (m : Model) : List ProgramType :=
  m.types.toList.filterMap KnownType.program?

/-- The types of the libraries in order. -/
def libraryTypes (m : Model) : List Named :=
  m.types.toList.filterMap fun
    | .program _ => none
    | .library t => some t

/-- The name that a type ends up with. -/
def currentName (m : Model) (id : TypeId) : Except Misuse String :=
  return (← m.get id).currentName

/-- Whether a type has been given its old name as its new one. -/
def keepsName (m : Model) (id : TypeId) : Except Misuse Bool := do
  let d ← m.get id
  return d.newName = some d.name

/-! ## Changing -/

/-- Adds a type, and gives its number. -/
def add (m : Model) (d : KnownType) : Except ModelError (TypeId × Model) :=
  if d.name = "" then .error .emptyTypeName
  else if (m.lookup d.name).isSome then .error (.duplicateType d.name)
  else .ok (m.size, { m with types := m.types.push d })

/-- Adds a module. -/
def addModule (m : Model) (descriptor : Named) : Model :=
  { m with modules := m.modules ++ [descriptor] }

/-- Puts a type in the place of the one with a number. -/
def replace (m : Model) (id : TypeId) (t : ProgramType) : Model :=
  { m with types := m.types.setIfInBounds id (.program t) }

/-- Gives a type of the program a new name. -/
def assign (m : Model) (id : TypeId) (newName : String) : Except Misuse Model := do
  match ← m.get id with
  | .program t => return m.replace id (t.withNewName newName)
  | .library t => throw (.fixedName t.name)

/-! ## The file form -/

/-- Adds types one after the other. -/
def addAll (m : Model) (types : List KnownType) : Except ModelError Model :=
  types.foldlM (fun m d => Prod.snd <$> m.add d) m

/-- Makes a model from its file form. -/
def ofFile (file : ModelFile) : Except ModelError Model := do
  let m ← empty.addAll (file.program.map .program ++ file.library.map .library)
  return { m with modules := file.modules }

/-- The file form of a model. -/
def toFile (m : Model) : ModelFile :=
  ⟨m.programTypes, m.libraryTypes, m.modules⟩

end Model

end Pseudonym
