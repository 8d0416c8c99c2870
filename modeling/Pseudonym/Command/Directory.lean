import Pseudonym.Command.Host
import Pseudonym.Text.Lines

/-!
# Directories in memory

A directory holds files, and the directories inside it are those in which files lie.  A path is
followed level by level from the directory itself: a dot leads nowhere else, two dots lead back,
and a name has to be that of a directory unless it is the last level.  Paths and names that are too
long lead nowhere.  Above the directory there
are only directories, and nothing in them can be found.

The host made of such a directory can replace files and add files to the directories that are there.
It keeps what is printed.
-/

namespace Pseudonym

/-- What a file holds. -/
inductive Content where
  | text (text : String)
  /-- Bytes that are no text in UTF-8. -/
  | binary
  deriving DecidableEq, Repr

/-- Files, each under the levels of its path. -/
structure Directory where
  files : List (List String × Content)
  deriving DecidableEq, Repr

namespace Directory

/-- The file under some levels. -/
def file? (d : Directory) (levels : List String) : Option Content :=
  d.files.lookup levels

/-- Whether some levels lead to a directory. -/
def isDirectory (d : Directory) (levels : List String) : Bool :=
  levels.isEmpty || d.files.any fun (path, _) => levels.isPrefixOf path && levels ≠ path

/-- Puts a content under some levels. -/
def put (d : Directory) (levels : List String) (content : Content) : Directory :=
  if (d.file? levels).isSome then
    ⟨d.files.map fun (path, old) => (path, if path = levels then content else old)⟩
  else ⟨d.files ++ [(levels, content)]⟩

theorem lookup_map_replace {files : List (List String × Content)} {levels : List String}
    {content : Content} (h : (files.lookup levels).isSome) :
    (files.map fun (path, old) => (path, if path = levels then content else old)).lookup levels =
      some content := by
  induction files with
  | nil => simp at h
  | cons entry rest ih =>
    obtain ⟨path, old⟩ := entry
    by_cases same : levels = path
    · subst same
      simp
    · have other : (levels == path) = false := by simpa using same
      simp only [List.map_cons, List.lookup_cons, other] at h ⊢
      exact ih h

/-- What is put under some levels is found there. -/
theorem file?_put (d : Directory) (levels : List String) (content : Content) :
    (d.put levels content).file? levels = some content := by
  unfold put
  split
  case isTrue h => exact lookup_map_replace h
  case isFalse h =>
    have absent : d.files.lookup levels = none := Option.not_isSome_iff_eq_none.1 h
    simp [file?, List.lookup_append, absent]

/-- The files that are not the same in an earlier directory. -/
def changesSince (d before : Directory) : List (List String × Content) :=
  d.files.filter fun (levels, content) => before.file? levels ≠ some content

/-! ## Following paths -/

/-- The levels of a path. -/
def levelsOf (path : String) : List String :=
  (Text.pieces '/' path.toList).map String.ofList

/-- The longest path, in bytes. -/
def longestPath : Nat := 4095

/-- The longest level of a path, in bytes. -/
def longestLevel : Nat := 255

/-- Follows levels from a directory, or from somewhere above.  The result is the levels of a file
that is there or could be, and nothing if the path leads to a directory. -/
def follow (d : Directory) : (here? : Option (List String)) → List String →
    Except FileFault (Option (List String))
  | _, [] => .ok none
  | here?, level :: rest =>
    if level = "" ∨ level = "." then d.follow here? rest
    else if level = ".." then
      d.follow (here?.bind fun here => if here.isEmpty then none else some here.dropLast) rest
    else if longestLevel < level.utf8ByteSize then .error .nameTooLong
    else match here? with
      | none => .error .notFound
      | some here =>
        let levels := here ++ [level]
        if d.isDirectory levels then d.follow (some levels) rest
        else if rest.isEmpty then .ok (some levels)
        else .error (if (d.file? levels).isSome then .notADirectory else .notFound)

/-- Follows the levels of a path. -/
def locate (d : Directory) (path : String) (levels : List String) :
    Except FileFault (Option (List String)) :=
  if path = "" then .error .notFound
  else if path.toList.contains '\x00' then .error (.other "InvalidInput")
  else if longestPath < path.utf8ByteSize then .error .nameTooLong
  else d.follow (if path.toList.head? = some '/' then none else some []) levels

/-- Reads a file. -/
def read (d : Directory) (path : String) : Except FileFault String := do
  match ← d.locate path (levelsOf path) with
  | none => throw .isADirectory
  | some levels =>
    match d.file? levels with
    | none => throw .notFound
    | some .binary => throw .invalidData
    | some (.text text) => return text

/-- Writes a file.  A slash at the end of the path asks for a directory, whatever its last level is,
so that the path is followed only up to that. -/
def write (d : Directory) (path text : String) : Except FileFault Directory := do
  let levels := (levelsOf path).filter (· ≠ "")
  if path.toList.getLast? = some '/' then
    let _ ← d.locate path (levels.dropLast ++ ["."])
    throw .isADirectory
  else match ← d.locate path levels with
    | none => throw .isADirectory
    | some levels => return d.put levels (.text text)

end Directory

/-! ## The host -/

/-- A directory with what has been printed beside it. -/
structure Desk where
  directory : Directory
  printed : String

namespace Desk

/-- Writes a file on a desk. -/
def write (path text : String) : StateM Desk (Except FileFault Unit) := do
  match (← get).directory.write path text with
  | .error fault => return .error fault
  | .ok directory =>
    modify ({ · with directory })
    return .ok ()

/-- The host that works on a desk. -/
def host : Host (StateM Desk) where
  read path := return (← get).directory.read path
  write := write
  print text := modify fun desk => { desk with printed := desk.printed ++ text }

end Desk
end Pseudonym
