/-!
# Paths as text

A path in a configuration file starts from the directory of that file.  Both are joined as texts,
and nothing is taken out of the result: `conf/c.json` and `../words.txt` make `conf/../words.txt`.
-/

namespace Pseudonym
namespace Path

/-- Whether a path starts from the current directory. -/
def isRelative (path : String) : Bool :=
  path.toList.head? ≠ some '/'

/-- Removes slashes, and dots that are a level by themselves, from the end of a path, which is given
last character first.  The slash at the root stays, and so does a dot at the beginning. -/
def trimEnd : List Char → List Char
  | ['/'] => ['/']
  | '/' :: rest => trimEnd rest
  | '.' :: '/' :: rest => trimEnd ('/' :: rest)
  | path => path

/-- The directory in which a file lies; empty for the current one. -/
def directoryOf (path : String) : String :=
  String.ofList (trimEnd (path.toList.reverse.dropWhile (· ≠ '/'))).reverse

/-- A path that starts from a directory. -/
def join (directory path : String) : String :=
  if !isRelative path || directory = "" then path
  else if directory.toList.getLast? = some '/' then directory ++ path
  else directory ++ "/" ++ path

end Path
end Pseudonym
