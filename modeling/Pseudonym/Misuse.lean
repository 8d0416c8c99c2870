/-!
# Misuse

The operations of this library can be asked for what makes no sense: the name of a type that is not
in the model, a new name for a library type, a name in a scope that is not open.  Such requests are
answered by a `Misuse` and change nothing.  A whole renaming pass never makes one.
-/

namespace Pseudonym

/-- The kinds of language metadata whose names are drawn in a scope of their own. -/
inductive Scope where
  | module
  | typeAlias
  | property
  deriving DecidableEq, Repr

/-- The scope as it is called in messages. -/
def Scope.label : Scope → String
  | .module => "Module"
  | .typeAlias => "TypeAlias"
  | .property => "Property"

/-- A request that makes no sense. -/
inductive Misuse where
  | unknownType (id : Nat)
  | fixedName (library : String)
  | scopeOpen (wanted current : Scope)
  | otherScope
  | outsideScope (scope : Scope)
  deriving DecidableEq, Repr

/-- The misuse in words. -/
def Misuse.message : Misuse → String
  | .unknownType id => "type id " ++ toString id ++ " is not part of this model"
  | .fixedName library => "library type `" ++ library ++ "` cannot be renamed"
  | .scopeOpen wanted current =>
    "cannot open " ++ wanted.label ++ " scope while Some(" ++ current.label ++ ") scope is open"
  | .otherScope => "mismatched metadata scope"
  | .outsideScope scope => scope.label ++ " name requested outside its scope"

end Pseudonym
