import Pseudonym.Model.Arena
import Pseudonym.Name.Syntax

/-!
# Which type lies in which

A type says in its own records in which other types it lies: the type in whose method it is declared
comes first, then the entries about itself in its table of inner types.  The first of these that is
another type of the model is the enclosing type; records of other kinds are passed over.

Names are given from the outside in, so the way leads outwards first.  It goes on from type to
type as long as the enclosing type has no name yet.  Records may run in a circle; the type at
which the way would come back to itself is named as if it lay in no other.
-/

namespace Pseudonym

/-- The enclosing type of a type. -/
structure Link where
  outer : TypeId
  /-- Whether the type gets a number for a name. -/
  numbered : Bool
  deriving DecidableEq, Repr

/-- The types in which a type is recorded to lie, in the order in which the records count. -/
def ProgramType.recordedOuters (t : ProgramType) : List String :=
  t.enclosingMethodType.toList ++
    t.innerTypes.filterMap fun entry => if entry.inner = some t.name then entry.outer else none

/-- Whether a type gets a number for a name: the class of a lambda expression, if metadata counts,
and a type whose own name is a number beyond that of the enclosing type. -/
def ProgramType.isNumbered (t : ProgramType) (adaptMetadata : Bool) (outer : String) : Bool :=
  (adaptMetadata && t.isLambda) || Name.isNumberedIn t.name outer

namespace Model

/-- The link that a recorded outer type makes, if it is another type of the model. -/
def linkTo (m : Model) (adaptMetadata : Bool) (t : ProgramType) (outer : String) : Option Link :=
  if outer = t.name then none
  else (m.lookup outer).map (⟨·, t.isNumbered adaptMetadata outer⟩)

/-- The link of a type to its enclosing type. -/
def link (m : Model) (adaptMetadata : Bool) (t : ProgramType) : Option Link :=
  t.recordedOuters.findSome? (m.linkTo adaptMetadata t)

/-- The type of the program with a number, if it has no new name. -/
def unnamed? (m : Model) (id : TypeId) : Option ProgramType :=
  m.types[id]?.bind fun
    | .program t => if t.newName.isNone then some t else none
    | .library _ => none

end Model

/-! ## The way outwards -/

/-- A type on the way outwards, with the link under which it is to be named. -/
structure Stage where
  id : TypeId
  name : String
  link : Option Link
  deriving DecidableEq, Repr

/-- Goes outwards from a type without a name, and lists the types on the way from the outermost to
the innermost.  `inside` holds those already passed, which are all different, so the number of types
is enough `fuel`. -/
def Model.outwards (m : Model) (adaptMetadata : Bool) :
    (fuel : Nat) → (inside : List Stage) → TypeId → ProgramType → List Stage
  | 0, inside, id, t => ⟨id, t.name, none⟩ :: inside
  | fuel + 1, inside, id, t =>
    match m.link adaptMetadata t with
    | none => ⟨id, t.name, none⟩ :: inside
    | some link =>
      let passed := ⟨id, t.name, some link⟩ :: inside
      match m.unnamed? link.outer with
      | none => passed
      | some outer =>
        if passed.any (·.id = link.outer) then ⟨id, t.name, none⟩ :: inside
        else m.outwards adaptMetadata fuel passed link.outer outer

/-- The types to be named with a type, from the outermost to the type itself. -/
def Model.chain (m : Model) (adaptMetadata : Bool) (id : TypeId) (t : ProgramType) : List Stage :=
  m.outwards adaptMetadata m.size [] id t

end Pseudonym
