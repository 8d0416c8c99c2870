/-!
# Hosts

The command reads files, writes files and prints.  A host is something that does this for it: the
machine on which the command runs, or a directory that is only held in memory.
-/

namespace Pseudonym

/-- Why a file cannot be read or written. -/
inductive FileFault where
  | notFound
  | isADirectory
  | notADirectory
  /-- The path or one of its levels is too long. -/
  | nameTooLong
  /-- The file holds no text in UTF-8. -/
  | invalidData
  | other (reason : String)
  deriving DecidableEq, Repr

/-- The fault in one word. -/
def FileFault.word : FileFault → String
  | .notFound => "NotFound"
  | .isADirectory => "IsADirectory"
  | .notADirectory => "NotADirectory"
  | .nameTooLong => "InvalidFilename"
  | .invalidData => "InvalidData"
  | .other reason => reason

/-- What the command needs of the world. -/
structure Host (m : Type → Type) where
  /-- Gives the text of a file. -/
  read : (path : String) → m (Except FileFault String)
  /-- Makes a text the whole of a file. -/
  write : (path text : String) → m (Except FileFault Unit)
  print : (text : String) → m Unit

end Pseudonym
