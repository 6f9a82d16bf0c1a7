import RowInference.Engine
import RowInference.Folder
import RowInference.Text.Blank
import RowInference.Text.Lower
import RowInference.Toml.Reader

/-! # Settings

Settings come from a TOML file, from the environment and from the command line, the later ones taking precedence.
What a file does not set has its default; keys that are not known are ignored.
-/

namespace RowInference

structure Settings where
  /-- How deep expressions and patterns may be nested. -/
  maxDepth : UInt64 := 512
  /-- The name of the least log level that is shown. -/
  level : String := "warn"
  colors : Bool := true
deriving DecidableEq, Repr

inductive SettingsError where
  | io
  | parse
deriving DecidableEq, Repr

namespace Settings

/-- The value of the only field of a section. A section can also be given as an array of its fields; a date counts as
a section without known fields. -/
def field? (name : String) : Option Toml.Value → Option (Option Toml.Value)
  | none => some none
  | some (.table _ entries) => some (entries.lookup name)
  | some (.array items) => some items.head?
  | some (.tables items) => some (items.head?.map (.table .header))
  | some (.datetime _) => some none
  | some _ => none

/-- A limit is an integer that is not negative. -/
def depthOf? : Toml.Value → Option UInt64
  | .integer value => if 0 ≤ value then some (UInt64.ofNat value.toNat) else none
  | _ => none

/-- A level is a string; it need not be the name of a level. -/
def levelOf? : Toml.Value → Option String
  | .string text => some text
  | _ => none

/-- A switch is a truth value. -/
def switchOf? : Toml.Value → Option Bool
  | .boolean value => some value
  | _ => none

/-- The value of a field, or its default if it is not set. -/
def setting? {α : Type} (root : Toml.Entries) (part name : String) (default : α) (read : Toml.Value → Option α) :
    Option α :=
  match field? name (root.lookup part) with
  | none => none
  | some none => some default
  | some (some value) => read value

def ofEntries? (root : Toml.Entries) : Option Settings := do
  let maxDepth ← setting? root "infer" "max_depth" 512 depthOf?
  let level ← setting? root "log" "level" "warn" levelOf?
  let colors ← setting? root "diagnostic" "colors" true switchOf?
  some { maxDepth, level, colors }

def ofToml? (text : String) : Option Settings := (Toml.read? text).bind ofEntries?

def toToml (settings : Settings) : String :=
  "[infer]\nmax_depth = " ++ toString settings.maxDepth.toNat
    ++ "\n\n[log]\nlevel = " ++ Toml.quote settings.level
    ++ "\n\n[diagnostic]\ncolors = " ++ (if settings.colors then "true" else "false") ++ "\n"

/-- The level to log at; an unknown name counts as `warn`. -/
def logLevel (settings : Settings) : Level :=
  match Level.ofName settings.level with
  | .ok level => level
  | .error _ => .warn

/-- Take the level from the environment, if it is set there to more than blanks. -/
def withEnvironment (settings : Settings) (level : Option String) : Settings :=
  match level with
  | none => settings
  | some text =>
    let name := Text.trim text
    if name.isEmpty then settings else { settings with level := Text.toLower name }

/-- The file in which settings are looked for when no file is named. -/
def fileName : String := "elm-infer.toml"

/-- The variable of the environment that holds a level. -/
def levelVariable : String := "ELM_INFER_LOG"

def load (folder : Folder) (path : String) : Except SettingsError Settings :=
  match folder.read? path with
  | none => .error .io
  | some text =>
    match ofToml? text with
    | none => .error .parse
    | some settings => .ok settings

/-- The settings in a named file, or else in the usual file if it is there. -/
def loadOrDefault (folder : Folder) (path : Option String) : Except SettingsError Settings :=
  match path with
  | some path => load folder path
  | none => if folder.contains fileName then load folder fileName else .ok {}

def save (settings : Settings) (folder : Folder) (path : String) : Except SettingsError Folder :=
  match folder.write? path settings.toToml with
  | some folder => .ok folder
  | none => .error .io

end Settings

end RowInference
