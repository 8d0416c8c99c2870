/-!
# The parts of a program model

A program consists of types that may be renamed and stands on library types that may not.  A type
has members, and records that say in which other type it lies: a table of inner types, and the
type whose method it is declared in.  Some languages attach metadata, which lists type aliases and
properties by name or marks a class as made by the compiler.

Everything that can get a new name carries it beside the old one.  A name given beforehand is a
name to be kept.
-/

namespace Pseudonym

/-! ## Named things -/

/-- A thing with a name and nothing else that matters here: a library type, a module, a type alias
or a property. -/
structure Named where
  name : String
  newName : Option String
  deriving DecidableEq, Repr

/-- The name a thing ends up with: the new one if it has one. -/
def Named.currentName (n : Named) : String :=
  n.newName.getD n.name

/-! ## Members -/

inductive MemberKind where
  | field
  | method
  deriving DecidableEq, Repr

/-- A field or method of a type. -/
structure Member where
  kind : MemberKind
  name : String
  /-- The type of a field, or the parameters in parentheses and the result of a method. -/
  descriptor : String
  /-- Whether the member must keep its name. -/
  keep : Bool
  newName : Option String
  deriving DecidableEq, Repr

namespace Member

/-- The name a member ends up with. -/
def currentName (m : Member) : String :=
  m.newName.getD m.name

/-- Whether a member is a constructor or an initializer, which are written in angle brackets. -/
def isSpecial (m : Member) : Bool :=
  m.name.toList.head? = some '<'

/-- Whether a member keeps the name it has. -/
def isSettled (m : Member) : Bool :=
  m.keep || m.newName.isSome || m.isSpecial

end Member

/-! ## Metadata -/

/-- What a class made by the compiler is for. -/
inductive Flavor where
  | lambda
  | whenMappings
  | regular
  deriving DecidableEq, Repr

/-- The declarations that metadata lists. -/
structure Declarations where
  typeAliases : List Named
  properties : List Named
  deriving DecidableEq, Repr

/-- The metadata of a type. -/
inductive Metadata where
  | ofClass (declarations : Declarations)
  | fileFacade (declarations : Declarations)
  | multiFilePart (declarations : Declarations)
  | multiFileFacade
  | syntheticClass (flavor : Flavor)
  deriving DecidableEq, Repr

namespace Metadata

/-- The declarations that the metadata lists, if it is of a kind that lists any. -/
def declarations? : Metadata → Option Declarations
  | .ofClass d => some d
  | .fileFacade d => some d
  | .multiFilePart d => some d
  | .multiFileFacade => none
  | .syntheticClass _ => none

/-- The metadata with other declarations in the place of those it lists. -/
def withDeclarations (m : Metadata) (d : Declarations) : Metadata :=
  match m with
  | .ofClass _ => .ofClass d
  | .fileFacade _ => .fileFacade d
  | .multiFilePart _ => .multiFilePart d
  | .multiFileFacade => .multiFileFacade
  | .syntheticClass flavor => .syntheticClass flavor

/-- Whether the metadata marks the class of a lambda expression. -/
def isLambda : Metadata → Bool
  | .syntheticClass .lambda => true
  | _ => false

end Metadata

/-! ## Types -/

/-- An entry of a table of inner types.  Either side may be missing. -/
structure Nesting where
  inner : Option String
  outer : Option String
  deriving DecidableEq, Repr

/-- A type of the program. -/
structure ProgramType where
  name : String
  newName : Option String
  innerTypes : List Nesting
  /-- The type in whose method this one is declared. -/
  enclosingMethodType : Option String
  metadata : Option Metadata
  members : List Member
  deriving DecidableEq, Repr

namespace ProgramType

/-- A type of which only the name is known. -/
def named (name : String) : ProgramType := ⟨name, none, [], none, none, []⟩

/-- The name a type ends up with. -/
def currentName (t : ProgramType) : String :=
  t.newName.getD t.name

/-- Gives the type a name beforehand. -/
def withNewName (t : ProgramType) (newName : String) : ProgramType :=
  { t with newName := some newName }

/-- Records that the type lies in another. -/
def nestedIn (t : ProgramType) (outer : String) : ProgramType :=
  { t with innerTypes := t.innerTypes ++ [⟨some t.name, some outer⟩] }

/-- Records that the type is declared in a method of another. -/
def declaredInMethodOf (t : ProgramType) (outer : String) : ProgramType :=
  { t with enclosingMethodType := some outer }

/-- Attaches metadata. -/
def withMetadata (t : ProgramType) (metadata : Metadata) : ProgramType :=
  { t with metadata := some metadata }

/-- Adds a member. -/
def withMember (t : ProgramType) (member : Member) : ProgramType :=
  { t with members := t.members ++ [member] }

/-- The declarations that the metadata of the type lists. -/
def declarations? (t : ProgramType) : Option Declarations :=
  t.metadata.bind Metadata.declarations?

/-- Whether the type is the class of a lambda expression. -/
def isLambda (t : ProgramType) : Bool :=
  t.metadata.any Metadata.isLambda

end ProgramType

/-- A type of the program or of a library. -/
inductive KnownType where
  | program (type : ProgramType)
  | library (type : Named)
  deriving DecidableEq, Repr

namespace KnownType

/-- The old name. -/
def name : KnownType → String
  | .program t => t.name
  | .library t => t.name

/-- The new name, if there is one. -/
def newName : KnownType → Option String
  | .program t => t.newName
  | .library t => t.newName

/-- The name the type ends up with. -/
def currentName (d : KnownType) : String :=
  d.newName.getD d.name

def isLibrary : KnownType → Bool
  | .program _ => false
  | .library _ => true

/-- The type, if it is one of the program. -/
def program? : KnownType → Option ProgramType
  | .program t => some t
  | .library _ => none

end KnownType

end Pseudonym
