import RowInference.Codec.Module
import RowInference.Json.Reader

/-! # Module input

The input of a run is a JSON text with a list of modules or with one module. A text that fits both, such as an array
that is one module given by position, is taken as a list if that succeeds.
-/

namespace RowInference

inductive ReadError where
  | notJson
  /-- The value is neither a module nor a list of modules. -/
  | notModules
  | duplicateModule (name : String)
deriving DecidableEq, Repr

/-- The first name that comes twice, where it comes again. -/
def firstTwice (seen : List String) : List String → Option String
  | [] => none
  | name :: rest => if seen.contains name then some name else firstTwice (name :: seen) rest

def modulesOf (json : Json) : Option (List (Module Span)) :=
  (Decoder.list (Module.ofJson? .span) json).or
    ((Module.ofJson? .span json).map fun module => [module])

/-- Read the modules of a text, each under its own name. The shape of the value is looked at before what follows it
in the text. -/
def readModules (text : String) : Except ReadError (ModuleMap Span) :=
  match Json.readFirst? text with
  | none => .error .notJson
  | some (json, rest) =>
    match modulesOf json with
    | none => .error .notModules
    | some modules =>
      if !(Json.skipSpace rest).isEmpty then .error .notJson
      else
        match firstTwice [] (modules.map Module.name) with
        | some name => .error (.duplicateModule name)
        | none => .ok (modules.map fun module => (module.name, module))

end RowInference
