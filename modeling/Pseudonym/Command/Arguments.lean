/-!
# Command-line arguments

An argument is an option or a value.  An option begins with two dashes and its name; those with a
short form can be written as one dash and a letter.  A value follows its option as the next
argument, or in the same one behind an equals sign, or directly behind the letter.  What begins
with a dash is no value unless it is a single dash or attached.  Two dashes alone end the options,
and nothing may follow them, since there are no other arguments.

An option that waits for its value, or whose value has just come, is settled by the next option
that is known, or by the end.  Settling finds that the value is missing, that the option was there
before, or that an empty value stands for a file.  So the option at fault is the first one, except
that what is no option at all is found at once.
-/

namespace Pseudonym

/-- What the command is told. -/
structure Arguments where
  model : String
  config : Option String
  printMapping : Option String
  printModel : Option String
  repackage : Option String
  flatten : Option String
  keepPackage : List String
  noMixedCase : Bool
  deriving DecidableEq, Repr

namespace Arguments

/-- The options with a value. -/
inductive Setting where
  | model
  | config
  | printMapping
  | printModel
  | repackage
  | flatten
  | keepPackage
  deriving DecidableEq, Repr

namespace Setting

/-- The name of an option. -/
def label : Setting → String
  | .model => "model"
  | .config => "config"
  | .printMapping => "print-mapping"
  | .printModel => "print-model"
  | .repackage => "repackage"
  | .flatten => "flatten"
  | .keepPackage => "keep-package"

/-- All options with a value. -/
def all : List Setting :=
  [.model, .config, .printMapping, .printModel, .repackage, .flatten, .keepPackage]

/-- Whether the value is the name of a file. -/
def isFile : Setting → Bool
  | .model | .config | .printMapping | .printModel => true
  | .repackage | .flatten | .keepPackage => false

/-- Whether the option may be given more than once. -/
def repeats : Setting → Bool
  | .keepPackage => true
  | _ => false

end Setting

/-- The options without a value. -/
inductive Switch where
  | noMixedCase
  | help
  | version
  deriving DecidableEq, Repr

/-- The name of an option without a value. -/
def Switch.label : Switch → String
  | .noMixedCase => "no-mixed-case"
  | .help => "help"
  | .version => "version"

def Switch.all : List Switch := [.noMixedCase, .help, .version]

/-- Why the command does not run. -/
inductive Refusal where
  /-- The help text is asked for. -/
  | help
  /-- The version is asked for. -/
  | version
  /-- An option that must be there is missing. -/
  | missing (setting : Setting)
  /-- An argument is no option. -/
  | unknown (argument : String)
  /-- A value is missing, or empty where a file is to be named. -/
  | badValue (setting : Setting)
  /-- An option without a value has one. -/
  | needlessValue (switch : Switch)
  /-- An option is there twice. -/
  | repeated (name : String)
  deriving DecidableEq, Repr

/-- The refusal in words. -/
def Refusal.message : Refusal → String
  | .help => "help"
  | .version => "version"
  | .missing setting => "the option --" ++ setting.label ++ " is required"
  | .unknown argument => "unexpected argument " ++ argument
  | .badValue setting => "the option --" ++ setting.label ++ " needs a value"
  | .needlessValue switch => "the option --" ++ switch.label ++ " takes no value"
  | .repeated name => "the option --" ++ name ++ " cannot be used more than once"

/-! ## Options -/

/-- An option, with the value that is attached to it. -/
inductive Word where
  | setting (setting : Setting) (attached : Option String)
  | switch (switch : Switch) (attached : Option String)
  deriving DecidableEq, Repr

/-- Divides a text at the first equals sign. -/
def divide (text : List Char) : List Char × Option (List Char) :=
  let name := text.takeWhile (· ≠ '=')
  (name, (text.drop name.length).tail?)

/-- The option with a name. -/
def Word.long? (name : String) (attached : Option String) : Option Word :=
  match Setting.all.find? (·.label = name) with
  | some found => some (.setting found attached)
  | none => (Switch.all.find? (·.label = name)).map (.switch · attached)

/-- What is attached to an option of one letter.  An equals sign in front does not count. -/
def attachedToLetter : List Char → Option String
  | [] => none
  | '=' :: value => some (String.ofList value)
  | value => some (String.ofList value)

/-- The option with a letter and something behind it. -/
def Word.short? : List Char → Option Word
  | 'c' :: rest => some (.setting .config (attachedToLetter rest))
  | 'h' :: _ => some (.switch .help none)
  | 'V' :: _ => some (.switch .version none)
  | _ => none

/-- What an argument is by its looks. -/
inductive Kind where
  | value
  | endOfOptions
  | option (word? : Option Word)
  deriving DecidableEq, Repr

/-- Looks at an argument. -/
def Kind.of (argument : String) : Kind :=
  match argument.toList with
  | ['-', '-'] => .endOfOptions
  | '-' :: '-' :: text =>
    let (name, attached) := divide text
    .option (Word.long? (String.ofList name) (attached.map String.ofList))
  | ['-'] => .value
  | '-' :: text => .option (Word.short? text)
  | _ => .value

/-! ## Collecting -/

/-- The options that are settled, in order. -/
structure Draft where
  values : List (Setting × String)
  noMixedCase : Bool

/-- An option that is not settled yet, with its value if that has come. -/
abbrev Pending := Option (Setting × Option String)

namespace Draft

/-- Takes the value of an option. -/
def assign (d : Draft) (setting : Setting) (value : String) : Except Refusal Draft :=
  if !setting.repeats && d.values.any (·.1 = setting) then .error (.repeated setting.label)
  else if setting.isFile && value = "" then .error (.badValue setting)
  else .ok { d with values := d.values ++ [(setting, value)] }

/-- Settles an option. -/
def settle (d : Draft) : Pending → Except Refusal Draft
  | none => .ok d
  | some (setting, none) => .error (.badValue setting)
  | some (setting, some value) => d.assign setting value

/-- Takes an option without a value. -/
def turn (d : Draft) : Switch → Except Refusal Draft
  | .help => .error .help
  | .version => .error .version
  | .noMixedCase =>
    if d.noMixedCase then .error (.repeated Switch.noMixedCase.label)
    else .ok { d with noMixedCase := true }

/-- Takes an option. -/
def take (d : Draft) (pending : Pending) : Word → Except Refusal (Draft × Pending)
  | .setting setting none => do return (← d.settle pending, some (setting, none))
  | .setting setting (some value) => do return (← (← d.settle pending).assign setting value, none)
  | .switch switch none => do return (← (← d.settle pending).turn switch, none)
  | .switch switch (some _) => throw (.needlessValue switch)

/-- Collects the options of a list of arguments. -/
def collect (d : Draft) (pending : Pending) : List String → Except Refusal Draft
  | [] => d.settle pending
  | argument :: rest =>
    match Kind.of argument with
    | .endOfOptions =>
      match rest with
      | [] => d.settle pending
      | next :: _ => .error (.unknown next)
    | .option none => .error (.unknown argument)
    | .option (some word) =>
      match d.take pending word with
      | .error refusal => .error refusal
      | .ok (d, pending) => d.collect pending rest
    | .value =>
      match pending with
      | some (setting, none) => d.collect (some (setting, some argument)) rest
      | _ => .error (.unknown argument)

/-- The value of an option. -/
def value? (d : Draft) (setting : Setting) : Option String :=
  d.values.lookup setting

/-- The arguments, if the model is among them. -/
def finish (d : Draft) : Except Refusal Arguments :=
  match d.value? .model with
  | none => .error (.missing .model)
  | some model => .ok {
      model
      config := d.value? .config
      printMapping := d.value? .printMapping
      printModel := d.value? .printModel
      repackage := d.value? .repackage
      flatten := d.value? .flatten
      keepPackage := (d.values.filter (·.1 = .keepPackage)).map (·.2)
      noMixedCase := d.noMixedCase }

end Draft

/-- Reads the arguments of the command. -/
def parse (arguments : List String) : Except Refusal Arguments := do
  (← Draft.collect ⟨[], false⟩ none arguments).finish

end Arguments
end Pseudonym
