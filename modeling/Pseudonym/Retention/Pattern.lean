import Pseudonym.Glob.Matching
import Pseudonym.Glob.Parse

/-!
# Namespace patterns

A pattern describes the namespaces that keep their names.  A question mark stands for one character
and a star for any number of them, neither reaching beyond a dot; two stars stand for any characters
whatever.  An exclamation mark in front turns the pattern into one whose namespaces do not keep
their names.

The levels of a namespace become the levels of a path, and the pattern becomes a glob.  Globs know
two stars only as whole levels.  Two stars that share a level with other characters are therefore
written out as two globs: one in which they stay inside the level, and one in which they go on into
further levels.  A pattern with several such places becomes all their combinations, and a namespace
matches the pattern if its path matches any of them.
-/

namespace Pseudonym
namespace Retention

/-- A namespace or a pattern with slashes for dots. -/
def slashesForDots (text : List Char) : List Char :=
  text.map fun c => if c = '.' then '/' else c

/-- The path of a namespace as bytes. -/
def pathOf (namespaceName : String) : List UInt8 :=
  Glob.bytes (slashesForDots namespaceName.toList)

/-- What two stars reach when they go beyond their level: the rest of the level before them, whole
levels, and the beginning of the level after them.  A side on which they already stand at the edge
of a level adds nothing. -/
def crossing (begins ends : Bool) : List Char :=
  (if begins then [] else ['*', '/']) ++ ['*', '*'] ++ (if ends then [] else ['/', '*'])

/-- Writes out the double stars of a pattern that share a level with other characters.  `begins`
tells whether a level begins here. -/
def expand (begins : Bool) : List Char → List (List Char)
  | [] => [[]]
  | '*' :: '*' :: rest =>
    let ends := rest.head?.all (· = '/')
    let globs := expand false rest
    if begins && ends then globs.map (['*', '*'] ++ ·)
    else globs.map ('*' :: ·) ++ globs.map (crossing begins ends ++ ·)
  | c :: rest => (expand (c = '/') rest).map (c :: ·)

/-- A pattern that has been read: whether the namespaces it matches keep their names, and the globs
that say which these are. -/
structure Pattern where
  keeps : Bool
  globs : List Glob
  deriving DecidableEq, Repr

/-- Whether a namespace matches. -/
def Pattern.accepts (p : Pattern) (namespaceName : String) : Bool :=
  p.globs.any (·.accepts (pathOf namespaceName))

/-- A pattern that cannot be read, and why. -/
structure BadPattern where
  pattern : String
  reason : Glob.Fault
  deriving DecidableEq, Repr

/-- What is wrong, without the reason. -/
def BadPattern.message (bad : BadPattern) : String :=
  "invalid namespace pattern `" ++ bad.pattern ++ "`"

/-- The globs of a pattern without its exclamation mark; the first that cannot be read spoils the
pattern. -/
def readGlobs (body : List Char) : Except Glob.Fault (List Glob) :=
  (expand true (slashesForDots body)).mapM Glob.parse

/-- Reads a pattern that is not empty. -/
def Pattern.parse (text : List Char) : Except BadPattern Pattern :=
  let (keeps, body) := match text with
    | '!' :: body => (false, body)
    | body => (true, body)
  match readGlobs body with
  | .ok globs => .ok ⟨keeps, globs⟩
  | .error reason => .error ⟨String.ofList text, reason⟩

end Retention
end Pseudonym
