import Pseudonym.Command.Settings
import Pseudonym.Model.File
import Pseudonym.Renaming.Mapping

/-!
# Running the command

The command reads its settings and the model, renames the program, and writes the mapping and, if it
is asked for, the renamed model.  It stops at the first failure.  What was written before stays.
-/

namespace Pseudonym

/-- Why the command fails. -/
inductive Failure where
  | readConfig (path : String) (fault : FileFault)
  | parseConfig (path : String) (fault : Json.Fault)
  | readModel (path : String) (fault : FileFault)
  | parseModel (path : String) (fault : Json.Fault)
  | badModel (path : String) (error : ModelError)
  | settings (error : SettingsError)
  | misuse (made : Misuse)
  | writeMapping (path : String) (fault : FileFault)
  | writeModel (path : String) (fault : FileFault)
  deriving DecidableEq, Repr

/-- The failure in words, from the outside in. -/
def Failure.message : Failure → String
  | .readConfig path fault => "failed to read config: " ++ path ++ ": " ++ fault.word
  | .parseConfig path fault =>
    "failed to parse config: " ++ path ++ ": " ++ Settings.parseMessage fault
  | .readModel path fault => "failed to read program model: " ++ path ++ ": " ++ fault.word
  | .parseModel path fault => "failed to parse program model: " ++ path ++ ": " ++ fault.word
  | .badModel path error => "invalid program model: " ++ path ++ ": " ++ error.message
  | .settings error => error.message
  | .misuse made => made.message
  | .writeMapping path fault => "failed to write mapping: " ++ path ++ ": " ++ fault.word
  | .writeModel path fault => "failed to write program model: " ++ path ++ ": " ++ fault.word

namespace Host

variable {m : Type → Type} [Monad m]

/-- What comes of a result, where `failure` tells which failure an error means. -/
def check {ε α : Type} (failure : ε → Failure) (result : Except ε α) : ExceptT Failure m α :=
  ExceptT.mk (pure (result.mapError failure))

/-- Loads a configuration file. -/
def readSettings (host : Host m) (path : String) : ExceptT Failure m Settings := do
  let text ← check (.readConfig path) (← host.read path)
  let settings ← check (.parseConfig path) (Settings.parse text)
  return settings.inDirectory (Path.directoryOf path)

/-- Loads a model. -/
def readModel (host : Host m) (path : String) : ExceptT Failure m Model := do
  let text ← check (.readModel path) (← host.read path)
  let file ← check (.parseModel path) (ModelFile.parse text)
  check (.badModel path) (Model.ofFile file)

/-- Writes the mapping to a file, or prints it. -/
def putMapping (host : Host m) (path? : Option String) (text : String) :
    ExceptT Failure m Unit := do
  match path? with
  | some path => check (.writeMapping path) (← host.write path text)
  | none => host.print text

/-- Writes the model if a file is named. -/
def putModel (host : Host m) (path? : Option String) (text : String) :
    ExceptT Failure m Unit := do
  match path? with
  | some path => check (.writeModel path) (← host.write path text)
  | none => return ()

/-- Runs the command. -/
def run (host : Host m) (a : Arguments) : ExceptT Failure m Unit := do
  let settings ← match a.config with
    | some path => host.readSettings path
    | none => pure .standard
  let settings := settings.withArguments a
  let model ← host.readModel a.model
  let options ← check .settings (← (settings.options host).run)
  let result ← check .misuse (model.rename options)
  host.putMapping a.printMapping (Mapping.ofModel result.model).print
  host.putModel a.printModel result.model.toFile.print

end Host
end Pseudonym
