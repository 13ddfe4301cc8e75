import CrudUi.CommandLine.OutputFormat
import CrudUi.Entries

/-!
# Arguments

The arguments name a command, with options before and after it.  `Level.scan` reads one level of
options from left to right and stops at the first thing wrong; an option is given at most once, a
value that starts with a dash must stand behind an equals sign.  What is not given may come from
a variable of the environment (`complete`).
-/

namespace CrudUi

/-- A reason for which arguments are refused. -/
inductive ArgumentError where
  | missingCommand
  | unexpected (argument : String)
  | unknownOption (argument : String)
  | repeatedOption (name : String)
  | missingValue (name : String)
  | superfluousValue (name : String)
  | invalidValue (name value : String)
  | missingOption (name : String)
  deriving DecidableEq, Repr

/-- The wording of an error. -/
def ArgumentError.message : ArgumentError → String
  | .missingCommand => "a command is required"
  | .unexpected argument => "unexpected argument '" ++ argument ++ "'"
  | .unknownOption argument => "unknown option '" ++ argument ++ "'"
  | .repeatedOption name => "option '--" ++ name ++ "' is given more than once"
  | .missingValue name => "option '--" ++ name ++ "' needs a value"
  | .superfluousValue name => "option '--" ++ name ++ "' takes no value"
  | .invalidValue name value => "invalid value '" ++ value ++ "' for option '--" ++ name ++ "'"
  | .missingOption name => "option '--" ++ name ++ "' is required"

/-- A number of rows: decimal digits, perhaps behind a plus sign, below `2 ^ 64`. -/
def readCount? (text : String) : Option Nat :=
  let digits := match text.toList with
    | '+' :: digits => digits
    | digits => digits
  if digits ≠ [] ∧ digits.all Char.isDigit then
    let count := Nat.ofDigitChars 10 digits 0
    if count < Nat.pow 2 64 then some count else none
  else none

/-! ### One level of options -/

/-- What the value of an option may be. -/
inductive ValueKind where
  | text
  | path
  | format
  | count
  deriving DecidableEq, Repr

/-- Whether a text may be the value of an option. -/
def ValueKind.accepts : ValueKind → String → Bool
  | .text, _ => true
  | .path, value => value ≠ ""
  | .format, value => (OutputFormat.ofName? value).isSome
  | .count, value => (readCount? value).isSome

/-- An option that takes a value. -/
structure OptionRule where
  name : String
  kind : ValueKind
  /-- The variable of the environment that gives the value where no argument does. -/
  environmentName : Option String := none
  deriving DecidableEq, Repr

/-- An argument by its form. -/
inductive Argument where
  /-- Two dashes, behind which there are no options. -/
  | separator
  | long (name : String) (value : Option String)
  | short (letter : Char)
  | word (text : String)
  deriving DecidableEq, Repr

/-- The form of an argument. -/
def Argument.ofText (text : String) : Argument :=
  match text.toList with
  | ['-', '-'] => .separator
  | '-' :: '-' :: rest =>
    .long (String.ofList (rest.takeWhile (· ≠ '='))) <|
      match rest.dropWhile (· ≠ '=') with
      | [] => none
      | _ :: value => some (String.ofList value)
  | '-' :: letter :: _ => .short letter
  | _ => .word text

/-- The options that may stand at one place, and the commands that may follow them. -/
structure Level where
  options : List OptionRule
  commands : List String := []
  /-- Whether the version may be asked for. -/
  tellsVersion : Bool := false
  deriving DecidableEq, Repr

/-- What ends a level of options. -/
inductive Stop where
  | atEnd
  | help
  | version
  | command (name : String) (rest : List String)
  deriving DecidableEq, Repr

namespace Level

/-- Adds the value of an option to those given before. -/
def give (level : Level) (name value : String) (given : Entries String) :
    Except ArgumentError (Entries String) :=
  match level.options.find? (·.name = name) with
  | none => .error (.unknownOption ("--" ++ name))
  | some option =>
    if (Entries.lookup name given).isSome then .error (.repeatedOption name)
    else if option.kind.accepts value then .ok (Entries.insert name value given)
    else .error (.invalidValue name value)

/-- Whether a text can stand behind an option as its value. -/
def isValue (text : String) : Bool :=
  match Argument.ofText text with
  | .word _ => true
  | _ => false

/-- What a flag without a value asks for. -/
def flag? (level : Level) (name : String) : Option Stop :=
  if name = "help" then some .help
  else if level.tellsVersion ∧ name = "version" then some .version
  else none

/-- Reads options up to the end, a command, or a request for help or the version. -/
def scan (level : Level) : List String → Entries String →
    Except ArgumentError (Entries String × Stop)
  | [], given => .ok (given, .atEnd)
  | argument :: rest, given =>
    match Argument.ofText argument with
    | .separator => match rest with
      | [] => .ok (given, .atEnd)
      | next :: _ => .error (.unexpected next)
    | .short letter =>
      if letter = 'h' then .ok (given, .help)
      else if level.tellsVersion ∧ letter = 'V' then .ok (given, .version)
      else .error (.unknownOption argument)
    | .word word =>
      if word ∈ level.commands then .ok (given, .command word rest)
      else .error (.unexpected word)
    | .long name (some value) =>
      if (level.flag? name).isSome then .error (.superfluousValue name)
      else do level.scan rest (← level.give name value given)
    | .long name none =>
      match level.flag? name, level.options.find? (·.name = name), rest with
      | some stop, _, _ => .ok (given, stop)
      | none, none, _ => .error (.unknownOption argument)
      | none, some _, [] => .error (.missingValue name)
      | none, some _, value :: rest =>
        if isValue value then do level.scan rest (← level.give name value given)
        else .error (.missingValue name)

/-- Adds the values that only the environment gives. -/
def complete (level : Level) (environment given : Entries String) :
    Except ArgumentError (Entries String) :=
  level.options.foldlM (fun given option =>
    if (Entries.lookup option.name given).isSome then .ok given
    else match option.environmentName.bind fun name => Entries.lookup name environment with
      | some value => level.give option.name value given
      | none => .ok given)
    given

end Level

/-! ### The program's arguments -/

/-- What `compile` is asked to do. -/
structure CompileOptions where
  input : Option String := none
  url : Option String := none
  output : Option String := none
  format : Option OutputFormat := none
  deriving DecidableEq, Repr

/-- What `batch` is asked to do. -/
structure BatchOptions where
  inputDirectory : String
  outputDirectory : String
  deriving DecidableEq, Repr

/-- What `serve` is asked to do. -/
structure ServeOptions where
  input : String
  address : String := "127.0.0.1:8080"
  rowCount : Nat := 5
  deriving DecidableEq, Repr

/-- A command with its options. -/
inductive Command where
  | compile (options : CompileOptions)
  | batch (options : BatchOptions)
  | serve (options : ServeOptions)
  /-- A text about the program. -/
  | help
  | version
  deriving DecidableEq, Repr

namespace Command

/-- The option that every level has. -/
def logLevel : OptionRule := { name := "log-level", kind := .text }

/-- The options before a command. -/
def outerLevel : Level where
  options := [logLevel]
  commands := ["compile", "batch", "serve", "help"]
  tellsVersion := true

/-- The options of `compile`. -/
def compileLevel : Level where
  options := [
    { name := "input", kind := .path, environmentName := some "UIGEN_INPUT" },
    { name := "url", kind := .text },
    { name := "output", kind := .path, environmentName := some "UIGEN_OUTPUT" },
    { name := "format", kind := .format },
    logLevel]

/-- The options of `batch`. -/
def batchLevel : Level where
  options := [
    { name := "input-dir", kind := .path },
    { name := "output-dir", kind := .path },
    logLevel]

/-- The options of `serve`. -/
def serveLevel : Level where
  options := [
    { name := "input", kind := .path, environmentName := some "UIGEN_INPUT" },
    { name := "bind", kind := .text, environmentName := some "UIGEN_BIND" },
    { name := "seed", kind := .count },
    logLevel]

/-- The value of an option that must be given. -/
def required (name : String) (values : Entries String) : Except ArgumentError String :=
  match Entries.lookup name values with
  | some value => .ok value
  | none => .error (.missingOption name)

/-- The command `compile` with the values of its options. -/
def ofCompileValues (values : Entries String) : Except ArgumentError Command :=
  .ok (.compile {
    input := Entries.lookup "input" values
    url := Entries.lookup "url" values
    output := Entries.lookup "output" values
    format := (Entries.lookup "format" values).bind OutputFormat.ofName? })

/-- The command `batch` with the values of its options. -/
def ofBatchValues (values : Entries String) : Except ArgumentError Command := do
  let inputDirectory ← required "input-dir" values
  let outputDirectory ← required "output-dir" values
  return .batch { inputDirectory, outputDirectory }

/-- The command `serve` with the values of its options. -/
def ofServeValues (values : Entries String) : Except ArgumentError Command := do
  let options : ServeOptions := { input := ← required "input" values }
  return .serve { options with
    address := (Entries.lookup "bind" values).getD options.address
    rowCount := ((Entries.lookup "seed" values).bind readCount?).getD options.rowCount }

/-- Reads the options of a command. -/
def ofOptions (level : Level) (ofValues : Entries String → Except ArgumentError Command)
    (environment : Entries String) (arguments : List String) : Except ArgumentError Command := do
  match ← level.scan arguments [] with
  | (given, .atEnd) => ofValues (← level.complete environment given)
  | (_, .version) => return .version
  | (_, _) => return .help

/-- The command that the arguments and the environment ask for. -/
def ofArguments (environment : Entries String) (arguments : List String) :
    Except ArgumentError Command := do
  match (← outerLevel.scan arguments []).2 with
  | .atEnd => throw .missingCommand
  | .version => return .version
  | .help => return .help
  | .command "compile" rest => ofOptions compileLevel ofCompileValues environment rest
  | .command "batch" rest => ofOptions batchLevel ofBatchValues environment rest
  | .command "serve" rest => ofOptions serveLevel ofServeValues environment rest
  | .command _ [] => return .help
  | .command _ (topic :: rest) =>
    if topic ∈ outerLevel.commands ∧ rest = [] then return .help
    else throw (.unexpected topic)

end Command

end CrudUi
