import RowInference.Codec.Module
import RowInference.CommandLine.Arguments
import RowInference.Diagnostic.Editor
import RowInference.Diagnostic.Text
import RowInference.Input
import RowInference.Settings

/-! # Runs of the program

A run is a function of the arguments, the folder it is started in and the level in the environment. It gives an exit
code and what is written to the two output streams.
-/

namespace RowInference.CommandLine

def programName : String := "elm-infer"

def version : String := "0.1.0"

/-- The platform the program says it runs on. -/
def platform : String := "linux"

/-- What a run comes to. -/
structure Outcome where
  exit : UInt32
  output : String := ""
  /-- The text for the error stream: log lines and diagnostics. -/
  errors : String := ""
  /-- Why the run could not be finished, if so. -/
  failure : Option String := none
deriving DecidableEq, Repr

/-- What a run needs to know besides its command. -/
structure Context where
  folder : Folder
  settings : Settings
  format : DiagnosticFormat
  threshold : Level

namespace Context

def log (context : Context) (events : List Event) : String :=
  Event.log context.threshold (.started programName version platform :: events)

def fail (context : Context) (events : List Event) (reason : String) : Outcome :=
  { exit := 1, errors := context.log events, failure := some reason }

/-- The text of an error, if it can be made. -/
def report? (context : Context) (error : Error) (source : Source) : Option String :=
  let diagnostic := Diagnostic.ofError error
  match context.format with
  | .json => some (diagnostic.editorJson.pretty ++ "\n")
  | .text => diagnostic.render? { colors := context.settings.colors } (some source)

/-- The modules in a file, or why they cannot be had. -/
def modules (context : Context) (file : String) : Except String (ModuleMap Span) :=
  match context.folder.read? file with
  | none => .error ("Failed to read: " ++ file)
  | some text =>
    match readModules text with
    | .ok modules => .ok modules
    | .error _ => .error ("Failed to parse: " ++ file)

/-- Infer the modules in a file. Types are shown by `present`, an error with the source text that `explain` gives. -/
def inferFile (context : Context) (file : String) (present : ModuleMap Typed → String)
    (explain : Except String Source) : Outcome :=
  match context.modules file with
  | .error reason => context.fail [] reason
  | .ok modules =>
    let run := Engine.infer context.settings.maxDepth.toNat modules
    match run.result with
    | .ok typed => { exit := 0, output := present typed, errors := context.log run.events }
    | .error error =>
      match explain with
      | .error reason => context.fail run.events reason
      | .ok source =>
        match context.report? error source with
        | some text => { exit := 1, errors := context.log run.events ++ text }
        -- The run breaks off; what the runtime says about it is left out.
        | none => { exit := 101, errors := context.log run.events }

end Context

def declarationLine (qualifier : String) (declaration : Declaration Typed) : String :=
  qualifier ++ declaration.name ++ " : " ++ declaration.info.scheme.text ++ "\n"

/-- Declarations with their types under the names of their modules, which are left out if there is only one. -/
def sections (modules : ModuleMap Typed) : String :=
  String.join (modules.map fun (key, module) =>
    (if modules.length > 1 then "-- " ++ key ++ "\n" else "")
      ++ String.join (module.declarations.map (declarationLine "")))

/-- Declarations with their types under their qualified names. -/
def qualified (modules : ModuleMap Typed) : String :=
  String.join (modules.map fun (key, module) =>
    String.join (module.declarations.map (declarationLine (key ++ "."))))

def trees (modules : ModuleMap Typed) : String := (modules.toJson Typed.toJson).pretty ++ "\n"

/-- The source text to explain an error with: the one that is named, or else only the name of the file. -/
def sourceFor (folder : Folder) (file : String) : Option String → Except String Source
  | none => .ok { name := file }
  | some path =>
    match folder.read? path with
    | some content => .ok { name := path, content := some content }
    | none => .error ("Failed to read: " ++ path)

def perform (context : Context) : Command → Outcome
  | .check file source => context.inferFile file sections (sourceFor context.folder file source)
  | .types file json =>
    context.inferFile file (if json then trees else qualified) (.ok { name := file })
  | .config => { exit := 0, output := context.settings.toToml, errors := context.log [] }

/-- Run the program; `none` if the arguments are not understood. -/
def run? (folder : Folder) (environment : Option String) (arguments : List String) : Option Outcome :=
  match parse? arguments with
  | none => none
  | some .version => some { exit := 0, output := programName ++ " " ++ version ++ "\n" }
  | some (.run options command) =>
    match Settings.loadOrDefault folder options.config with
    | .error _ => some { exit := 1, failure := some "Failed to load configuration" }
    | .ok settings =>
      let settings := settings.withEnvironment environment
      let settings := if options.noColor then { settings with colors := false } else settings
      some (perform {
        folder
        settings
        format := options.diagnostics.getD .text
        threshold := if options.verbose then .debug else settings.logLevel } command)

/-- The paths of the files that a run may read. -/
def paths (arguments : List String) : List String :=
  match parse? arguments with
  | some (.run options command) =>
    options.config.getD Settings.fileName :: match command with
      | .check file source => file :: source.toList
      | .types file _ => [file]
      | .config => []
  | _ => []

end RowInference.CommandLine
