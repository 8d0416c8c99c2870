import Pseudonym.Command.Run

/-!
# The command

Gives the command the machine it runs on as its host.  Refused arguments end it with status 2 and
failures with status 1; help and version are printed.
-/

namespace Pseudonym

/-- The fault that an error of the machine means. -/
def FileFault.ofError : IO.Error → FileFault
  | .noFileOrDirectory .. => .notFound
  | .inappropriateType .. => .isADirectory
  | error => .other (toString error)

/-- Reads a file as text. -/
def readTextFile (path : String) : IO (Except FileFault String) := do
  try
    match String.fromUTF8? (← IO.FS.readBinFile path) with
    | some text => return .ok text
    | none => return .error .invalidData
  catch error => return .error (.ofError error)

/-- Writes a text to a file. -/
def writeTextFile (path text : String) : IO (Except FileFault Unit) := do
  try
    IO.FS.writeFile path text
    return .ok ()
  catch error => return .error (.ofError error)

/-- The machine on which the command runs. -/
def machine : Host IO where
  read := readTextFile
  write := writeTextFile
  print := IO.print

/-- How the command is used. -/
def usage : String :=
  "usage: pseudonym --model FILE [-c FILE] [--print-mapping FILE] [--print-model FILE]\n" ++
    "  [--repackage PREFIX] [--flatten PREFIX] [--keep-package PATTERN]... [--no-mixed-case]"

/-- Answers arguments with which the command does not run. -/
def answerRefusal : Arguments.Refusal → IO UInt32
  | .help => do IO.println usage; return 0
  | .version => do IO.println "pseudonym 0.1.0"; return 0
  | refusal => do
    IO.eprintln ("error: " ++ refusal.message ++ "\n" ++ usage)
    return 2

/-- Runs the command with its arguments. -/
def runCommand (arguments : List String) : IO UInt32 := do
  match Arguments.parse arguments with
  | .error refusal => answerRefusal refusal
  | .ok a =>
    match ← (machine.run a).run with
    | .ok () => return 0
    | .error failure =>
      IO.eprintln ("Error: " ++ failure.message)
      return 1

end Pseudonym

def main (arguments : List String) : IO UInt32 :=
  Pseudonym.runCommand arguments
