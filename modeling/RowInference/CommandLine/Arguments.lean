/-! # Command line arguments

Options that all commands share may stand before or after the command; what stands after it takes precedence. The
same option must not be given twice on one side. An option with a value takes the rest of its argument after `=`, or
the next argument, which must not look like an option.
-/

namespace RowInference.CommandLine

inductive DiagnosticFormat where
  | text
  | json
deriving DecidableEq, Repr

inductive Command where
  /-- Print the types of the modules in a file; a source text helps to explain errors. -/
  | check (file : String) (source : Option String)
  /-- Print the types of the modules in a file, or the whole typed trees. -/
  | types (file : String) (json : Bool)
  | config
deriving DecidableEq, Repr

/-- The options that all commands share, as far as they are given. -/
structure Options where
  config : Option String := none
  verbose : Bool := false
  noColor : Bool := false
  diagnostics : Option DiagnosticFormat := none
deriving DecidableEq, Repr

/-- What the arguments ask for. -/
inductive Request where
  | version
  | run (options : Options) (command : Command)
deriving DecidableEq, Repr

/-- The options of one side and what belongs to the command alone. -/
structure Given where
  options : Options := {}
  file : Option String := none
  source : Option String := none
  json : Bool := false

inductive CommandName where
  | check
  | types
  | config
deriving DecidableEq, Repr

def CommandName.ofName? : String → Option CommandName
  | "check" => some .check
  | "types" => some .types
  | "config" => some .config
  | _ => none

def setOnce (old : Bool) : Option Bool := if old then none else some true

def fillOnce {α : Type} (old : Option α) (value : α) : Option (Option α) :=
  match old with
  | none => some (some value)
  | some _ => none

/-- Set the switch of a long option, for a command or before one. -/
def setSwitch? (command : Option CommandName) (name : String) (given : Given) : Option Given :=
  match name with
  | "--verbose" => do
    let verbose ← setOnce given.options.verbose
    some { given with options := { given.options with verbose } }
  | "--no-color" => do
    let noColor ← setOnce given.options.noColor
    some { given with options := { given.options with noColor } }
  | "--json" =>
    if command = some .types then do
      let json ← setOnce given.json
      some { given with json }
    else none
  | _ => none

def takesValue (command : Option CommandName) (name : String) : Bool :=
  name == "--config" || name == "--diagnostics" || (name == "--source" && command == some .check)

/-- Set the value of a long option. Paths are not empty. -/
def setValue? (name value : String) (given : Given) : Option Given :=
  match name with
  | "--config" =>
    if value.isEmpty then none
    else do
      let config ← fillOnce given.options.config value
      some { given with options := { given.options with config } }
  | "--source" =>
    if value.isEmpty then none
    else do
      let source ← fillOnce given.source value
      some { given with source }
  | "--diagnostics" => do
    let format ← match value with
      | "text" => some DiagnosticFormat.text
      | "json" => some DiagnosticFormat.json
      | _ => none
    let diagnostics ← fillOnce given.options.diagnostics format
    some { given with options := { given.options with diagnostics } }
  | _ => none

/-- Take an argument that is not an option: the file of a command that has one. -/
def setFile? (command : CommandName) (file : String) (given : Given) : Option Given :=
  if command = .config ∨ file.isEmpty then none
  else do
    let file ← fillOnce given.file file
    some { given with file }

def isOption (argument : String) : Bool := argument.startsWith "-" && argument != "-"

/-- A long option and what is attached to it after `=`. -/
def splitOption (argument : String) : String × Option String :=
  let chars := argument.toList
  let name := String.ofList (chars.takeWhile fun c => c != '=')
  match chars.dropWhile fun c => c != '=' with
  | [] => (name, none)
  | _ :: value => (name, some (String.ofList value))

/-- Take the letters of a short option before a command. A version letter asks for the version. -/
def takeLetters? (command : Option CommandName) : List Char → Given → Option (Given ⊕ Unit)
  | [], given => some (.inl given)
  | 'v' :: rest, given => (setSwitch? command "--verbose" given).bind (takeLetters? command rest)
  | 'V' :: _, _ => if command.isNone then some (.inr ()) else none
  | _, _ => none

def takeFiles? (command : CommandName) : List String → Given → Option Given
  | [], given => some given
  | file :: rest, given => (setFile? command file given).bind (takeFiles? command rest)

/-- A command with the options before it and after it, if what it needs is given. -/
def finish? (before : Options) (command : CommandName) (given : Given) : Option Request := do
  let after := given.options
  let options : Options := {
    config := after.config.or before.config
    verbose := after.verbose || before.verbose
    noColor := after.noColor || before.noColor
    diagnostics := after.diagnostics.or before.diagnostics }
  match command with
  | .check => return .run options (.check (← given.file) given.source)
  | .types => return .run options (.types (← given.file) given.json)
  | .config => return .run options .config

/-- Read arguments, before a command or after one. `before` holds the options of the other side once the command is
known. -/
def read? (before : Options) (command : Option CommandName) (given : Given) : List String → Option Request
  | [] =>
    match command with
    | none => none
    | some command => finish? before command given
  | "--" :: rest =>
    match command with
    | none => none
    | some command => (takeFiles? command rest given).bind (finish? before command)
  | argument :: rest =>
    if argument.startsWith "--" then
      match splitOption argument, rest with
      | (name, some value), rest =>
        if takesValue command name then (setValue? name value given).bind fun given => read? before command given rest
        else none
      | (name, none), rest =>
        if takesValue command name then
          match rest with
          | value :: rest =>
            if isOption value then none
            else (setValue? name value given).bind fun given => read? before command given rest
          | [] => none
        else if name = "--version" ∧ command.isNone then some .version
        else (setSwitch? command name given).bind fun given => read? before command given rest
    else if isOption argument then
      match takeLetters? command (argument.toList.drop 1) given with
      | some (.inl given) => read? before command given rest
      | some (.inr _) => some .version
      | none => none
    else
      match command with
      | some name => (setFile? name argument given).bind fun given => read? before command given rest
      | none => (CommandName.ofName? argument).bind fun name => read? given.options (some name) {} rest

/-- What a list of arguments asks for; `none` if they are not understood. -/
def parse? (arguments : List String) : Option Request := read? {} none {} arguments

end RowInference.CommandLine
