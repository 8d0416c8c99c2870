import Pseudonym.Json.Printer
import Pseudonym.Json.Reader
import Pseudonym.Json.Tree
import Pseudonym.Model.Arena

/-!
# Models as JSON

A model file is a JSON object with three lists: the types of the program, those of the libraries and
the modules.  Printing leaves out what is absent, empty or false, except for the three lists, and
puts everything else in a fixed order.

Reading takes back what printing gives out and more.  Names that are not known are passed over,
except at the top; every record may also be an array of its fields in order; and what is left out
may be written as well.  Metadata says in its member `kind` what it is, wherever that member stands.
Its other members are read as trees before anything is made of them.
-/

namespace Pseudonym

open Json

/-! ## Printing -/

namespace Json

/-- A member of an object that is left out if there is no value. -/
def optionalMember (key : String) (value : Option Json) : List (String × Json) :=
  match value with
  | none => []
  | some value => [(key, value)]

/-- A member of an object that is left out if the list is empty. -/
def listMember {α : Type} (key : String) (item : α → Json) (items : List α) :
    List (String × Json) :=
  match items with
  | [] => []
  | items => [(key, .array (items.map item))]

end Json

/-- The new name of a thing as a member, if it has one. -/
def newNameMember (newName : Option String) : List (String × Json) :=
  optionalMember "newName" (newName.map .string)

def Named.toJson (n : Named) : Json :=
  .object (("name", .string n.name) :: newNameMember n.newName)

def MemberKind.label : MemberKind → String
  | .field => "field"
  | .method => "method"

def Member.toJson (m : Member) : Json :=
  .object ([
    ("kind", .string m.kind.label),
    ("name", .string m.name),
    ("descriptor", .string m.descriptor)] ++
    (if m.keep then [("keep", .bool true)] else []) ++
    newNameMember m.newName)

def Nesting.toJson (n : Nesting) : Json :=
  .object (optionalMember "inner" (n.inner.map .string) ++
    optionalMember "outer" (n.outer.map .string))

def Flavor.label : Flavor → String
  | .lambda => "lambda"
  | .whenMappings => "whenMappings"
  | .regular => "regular"

/-- The members of an object that lists declarations. -/
def Declarations.members (d : Declarations) : List (String × Json) :=
  listMember "typeAliases" Named.toJson d.typeAliases ++
    listMember "properties" Named.toJson d.properties

def Declarations.toJson (d : Declarations) : Json :=
  .object d.members

/-- The kind of metadata in one word. -/
def Metadata.label : Metadata → String
  | .ofClass _ => "class"
  | .fileFacade _ => "fileFacade"
  | .multiFilePart _ => "multiFilePart"
  | .multiFileFacade => "multiFileFacade"
  | .syntheticClass _ => "syntheticClass"

/-- What metadata says beside its kind. -/
def Metadata.members : Metadata → List (String × Json)
  | .ofClass d => d.members
  | .fileFacade d => d.members
  | .multiFilePart d => d.members
  | .multiFileFacade => []
  | .syntheticClass flavor => [("flavor", .string flavor.label)]

def Metadata.toJson (m : Metadata) : Json :=
  .object (("kind", .string m.label) :: m.members)

def ProgramType.toJson (t : ProgramType) : Json :=
  .object (("name", .string t.name) :: (newNameMember t.newName ++
    listMember "innerTypes" Nesting.toJson t.innerTypes ++
    optionalMember "enclosingMethodType" (t.enclosingMethodType.map .string) ++
    optionalMember "metadata" (t.metadata.map Metadata.toJson) ++
    listMember "members" Member.toJson t.members))

def KnownType.toJson : KnownType → Json
  | .program t => t.toJson
  | .library t => t.toJson

def ModelFile.toJson (file : ModelFile) : Json :=
  .object [
    ("program", .array (file.program.map ProgramType.toJson)),
    ("library", .array (file.library.map Named.toJson)),
    ("modules", .array (file.modules.map Named.toJson))]

/-- The text of a model file. -/
def ModelFile.print (file : ModelFile) : String :=
  file.toJson.pretty

/-! ## Reading metadata -/

/-- A named thing from a tree. -/
def Named.ofJson? (tree : Json) : Option Named := do
  match ← tree.fields? ["name", "newName"] with
  | [some name, newName] => return ⟨← name.text?, ← optionalText? newName⟩
  | _ => none

/-- Declarations from a tree. -/
def Declarations.ofJson? (tree : Json) : Option Declarations := do
  match ← tree.fields? ["typeAliases", "properties"] with
  | [typeAliases, properties] =>
    return ⟨← optionalList? Named.ofJson? typeAliases, ← optionalList? Named.ofJson? properties⟩
  | _ => none

def Flavor.ofLabel? (label : String) : Option Flavor :=
  if label = "lambda" then some .lambda
  else if label = "whenMappings" then some .whenMappings
  else if label = "regular" then some .regular
  else none

/-- The kinds of metadata. -/
inductive MetadataKind where
  | ofClass
  | fileFacade
  | multiFilePart
  | multiFileFacade
  | syntheticClass
  deriving DecidableEq, Repr

def MetadataKind.ofLabel? (label : String) : Option MetadataKind :=
  if label = "class" then some .ofClass
  else if label = "fileFacade" then some .fileFacade
  else if label = "multiFilePart" then some .multiFilePart
  else if label = "multiFileFacade" then some .multiFileFacade
  else if label = "syntheticClass" then some .syntheticClass
  else none

/-- Metadata of a kind from the tree of what it says beside its kind. -/
def Metadata.ofJson? (kind : MetadataKind) (tree : Json) : Option Metadata :=
  match kind with
  | .ofClass => .ofClass <$> Declarations.ofJson? tree
  | .fileFacade => .fileFacade <$> Declarations.ofJson? tree
  | .multiFilePart => .multiFilePart <$> Declarations.ofJson? tree
  | .multiFileFacade =>
    match tree with
    | .object _ => some .multiFileFacade
    | .array [] => some .multiFileFacade
    | _ => none
  | .syntheticClass => do
    match ← tree.fields? ["flavor"] with
    | [some flavor] => return .syntheticClass (← Flavor.ofLabel? (← flavor.case?))
    | _ => none

/-- Metadata of which some members have been read; the others are held last one first. -/
structure OpenMetadata where
  kind : Option MetadataKind
  members : List (String × Json)

/-- The metadata of a model file lies in four containers: the file, a list, a type and its own. -/
def metadataAttention : Attention := .careful 4

/-- How a member of metadata is read. -/
def OpenMetadata.member (m : OpenMetadata) (key : String) : Except Fault (Reader OpenMetadata) :=
  if key = "kind" then
    if m.kind.isSome then .error .mismatched
    else .ok fun input => do
      let (kind, rest) ← readWord MetadataKind.ofLabel? input
      return ({ m with kind := some kind }, rest)
  else .ok fun input => do
    let (tree, rest) ← readTree metadataAttention input
    return ({ m with members := (key, tree) :: m.members }, rest)

/-- Makes metadata of its kind and the tree of the rest. -/
def Metadata.complete (kind : Option MetadataKind) (tree : Json) (rest : List Token) :
    Except Fault (Metadata × List Token) :=
  match kind.bind (Metadata.ofJson? · tree) with
  | some metadata => .ok (metadata, rest)
  | none => .error .mismatched

/-- Reads metadata. -/
def Metadata.read : Reader Metadata
  | .openObject :: rest => do
    let (m, rest) ← readMembers OpenMetadata.member (rest.length + 1) true ⟨none, []⟩ rest
    Metadata.complete m.kind (.object m.members.reverse) rest
  | .openArray :: rest => do
    match ← nextItem true rest with
    | (false, _) => throw .mismatched
    | (true, rest) =>
      let (kind, rest) ← readWord MetadataKind.ofLabel? rest
      let (items, rest) ← readItems (readTree metadataAttention) (rest.length + 1) false [] rest
      Metadata.complete (some kind) (.array items) rest
  | input => .error (wrongShape input)

/-! ## Reading the other records -/

/-- A record of a name and a new name that is being read. -/
structure Named.Draft where
  name : Option String
  newName : Option String

def Named.shape : Shape Named.Draft Named where
  fields := [
    .of "name" readString fun r name => { r with name := some name },
    .of "newName" (readOptional readString) fun r newName => { r with newName := newName }]
  blank := ⟨none, none⟩
  closed := false
  finish r := r.name.map (⟨·, r.newName⟩)

def Nesting.shape : Shape Nesting Nesting where
  fields := [
    .of "inner" (readOptional readString) fun r inner => { r with inner := inner },
    .of "outer" (readOptional readString) fun r outer => { r with outer := outer }]
  blank := ⟨none, none⟩
  closed := false
  finish := some

def MemberKind.ofLabel? (label : String) : Option MemberKind :=
  if label = "field" then some .field
  else if label = "method" then some .method
  else none

/-- A member that is being read. -/
structure Member.Draft where
  kind : Option MemberKind
  name : Option String
  descriptor : Option String
  keep : Bool
  newName : Option String

/-- The member, if nothing is missing. -/
def Member.Draft.finish (r : Member.Draft) : Option Member := do
  return ⟨← r.kind, ← r.name, ← r.descriptor, r.keep, r.newName⟩

def Member.shape : Shape Member.Draft Member where
  fields := [
    .of "kind" (readCase MemberKind.ofLabel?) fun r kind => { r with kind := some kind },
    .of "name" readString fun r name => { r with name := some name },
    .of "descriptor" readString fun r descriptor => { r with descriptor := some descriptor },
    .of "keep" readBool fun r keep => { r with keep := keep },
    .of "newName" (readOptional readString) fun r newName => { r with newName := newName }]
  blank := ⟨none, none, none, false, none⟩
  closed := false
  finish := Member.Draft.finish

/-- A type of the program that is being read. -/
structure ProgramType.Draft where
  name : Option String
  newName : Option String
  innerTypes : List Nesting
  enclosingMethodType : Option String
  metadata : Option Metadata
  members : List Member

/-- The type, if it has a name. -/
def ProgramType.Draft.finish (r : ProgramType.Draft) : Option ProgramType :=
  r.name.map (⟨·, r.newName, r.innerTypes, r.enclosingMethodType, r.metadata, r.members⟩)

def ProgramType.shape : Shape ProgramType.Draft ProgramType where
  fields := [
    .of "name" readString fun r name => { r with name := some name },
    .of "newName" (readOptional readString) fun r newName => { r with newName := newName },
    .of "innerTypes" (readList Nesting.shape.read)
      fun r entries => { r with innerTypes := entries },
    .of "enclosingMethodType" (readOptional readString)
      fun r outer => { r with enclosingMethodType := outer },
    .of "metadata" (readOptional Metadata.read) fun r metadata => { r with metadata := metadata },
    .of "members" (readList Member.shape.read) fun r members => { r with members := members }]
  blank := ⟨none, none, [], none, none, []⟩
  closed := false
  finish := ProgramType.Draft.finish

def ModelFile.shape : Shape ModelFile ModelFile where
  fields := [
    .of "program" (readList ProgramType.shape.read) fun r types => { r with program := types },
    .of "library" (readList Named.shape.read) fun r types => { r with library := types },
    .of "modules" (readList Named.shape.read) fun r modules => { r with modules := modules }]
  blank := ⟨[], [], []⟩
  closed := true
  finish := some

/-- Reads the text of a model file. -/
def ModelFile.parse (text : String) : Except Fault ModelFile :=
  readText ModelFile.shape.read text

end Pseudonym
