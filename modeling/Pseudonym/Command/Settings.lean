import Pseudonym.Command.Arguments
import Pseudonym.Command.Host
import Pseudonym.Command.Path
import Pseudonym.Json.Reader
import Pseudonym.Name.WordList
import Pseudonym.Renaming.Pass

/-!
# Settings

What a pass is to do is set in a JSON file, and arguments go before it.  The file is an object whose
members all have a default, and no others are allowed.  Word lists are named by their files.

Making options of the settings reads the retention lists first and then the files, in the order of
types, namespaces and members.
-/

namespace Pseudonym

/-- What the configuration file sets. -/
structure Settings where
  keepPackageNames : List String
  classDictionary : Option String
  packageDictionary : Option String
  memberDictionary : Option String
  flattenHierarchy : Option String
  repackageClasses : Option String
  useMixedCase : Bool
  allowAccess : Bool
  adaptMetadata : Bool
  overload : Bool
  deriving DecidableEq, Repr

/-- Why there are no options for some settings. -/
inductive SettingsError where
  | badPattern (bad : Retention.BadPattern)
  | badDictionary (path : String) (fault : FileFault)
  deriving DecidableEq, Repr

/-- The error in words, from the outside in. -/
def SettingsError.message : SettingsError → String
  | .badPattern bad =>
    "invalid keepPackageNames pattern: " ++ bad.message ++ ": " ++ bad.reason.message
  | .badDictionary path fault =>
    "failed to load dictionary: " ++ path ++ ": failed to read dictionary " ++ path ++ ": " ++
      fault.word

namespace Settings

open Json

/-! ## Reading -/

/-- The settings where nothing is set. -/
def standard : Settings := ⟨[], none, none, none, none, none, true, false, true, false⟩

instance : Inhabited Settings := ⟨standard⟩

/-- The text of an optional member. -/
def textField (key : String) (store : Settings → Option String → Settings) : Json.Field Settings :=
  .of key (readOptional readString) store

/-- The shape of the configuration file. -/
def shape : Shape Settings Settings where
  fields := [
    .of "keepPackageNames" (readList readString)
      fun s lists => { s with keepPackageNames := lists },
    textField "classObfuscationDictionary" fun s path => { s with classDictionary := path },
    textField "packageObfuscationDictionary" fun s path => { s with packageDictionary := path },
    textField "obfuscationDictionary" fun s path => { s with memberDictionary := path },
    textField "flattenPackageHierarchy" fun s target => { s with flattenHierarchy := target },
    textField "repackageClasses" fun s target => { s with repackageClasses := target },
    .of "useMixedCaseClassNames" readBool fun s flag => { s with useMixedCase := flag },
    .of "allowAccessModification" readBool fun s flag => { s with allowAccess := flag },
    .of "adaptLanguageMetadata" readBool fun s flag => { s with adaptMetadata := flag },
    .of "overloadAggressively" readBool fun s flag => { s with overload := flag }]
  blank := standard
  closed := true
  finish := some

/-- Reads the text of a configuration file. -/
def parse (text : String) : Except Fault Settings :=
  readText shape.read text

/-- What it means that the text of a configuration file cannot be read. -/
def parseMessage (fault : Fault) : String :=
  "failed to parse obfuscation config JSON: " ++ fault.word

/-! ## Changing -/

/-- The settings under the arguments.  Retention lists are added, the rest is replaced. -/
def withArguments (s : Settings) (a : Arguments) : Settings :=
  { s with
    keepPackageNames := s.keepPackageNames ++ a.keepPackage
    repackageClasses := a.repackage <|> s.repackageClasses
    flattenHierarchy := a.flatten <|> s.flattenHierarchy
    useMixedCase := s.useMixedCase && !a.noMixedCase }

/-- The settings of a file in a directory, from which the paths of the word lists start. -/
def inDirectory (s : Settings) (directory : String) : Settings :=
  { s with
    classDictionary := s.classDictionary.map (Path.join directory)
    packageDictionary := s.packageDictionary.map (Path.join directory)
    memberDictionary := s.memberDictionary.map (Path.join directory) }

/-! ## Options -/

variable {m : Type → Type} [Monad m]

/-- Reads the retention lists. -/
def rules (s : Settings) : Except SettingsError Retention.Rules :=
  (Retention.Rules.parse s.keepPackageNames).mapError .badPattern

/-- Reads a word list if a file is named. -/
def readWords (host : Host m) : Option String → ExceptT SettingsError m (Option Name.WordList)
  | none => return none
  | some path => do
    match ← host.read path with
    | .ok text => return some (.parse .identifiers text)
    | .error fault => throw (.badDictionary path fault)

/-- Makes options of settings. -/
def options (s : Settings) (host : Host m) : ExceptT SettingsError m PassOptions := do
  let keep ← s.rules
  let typeWords ← readWords host s.classDictionary
  let namespaceWords ← readWords host s.packageDictionary
  let memberWords ← readWords host s.memberDictionary
  return {
    naming := {
      typeWords, namespaceWords, keep
      mixedCase := s.useMixedCase
      flatten := s.flattenHierarchy
      repackage := s.repackageClasses
      allowAccess := s.allowAccess }
    memberWords
    adaptMetadata := s.adaptMetadata
    overload := s.overload }

end Settings
end Pseudonym
