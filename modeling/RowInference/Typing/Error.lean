import RowInference.Span
import RowInference.Unification

/-! # Errors of inference

An error is a cause, as data, and where it was found. Its text is made from the cause by one function. Type
errors concern an expression or a pattern; input errors concern modules, declarations and imports.
-/

namespace RowInference

/-- What is wrong with an expression or a pattern. -/
inductive Fault where
  /-- Two types that should be equal are not. -/
  | mismatch (expected actual : Ty)
  /-- A type would have to contain itself. -/
  | infinite (var : TypeVar) (type : Ty)
  | unbound (name : String)
  | unsupported (form : String)
  /-- Expressions or patterns are nested deeper than allowed. -/
  | tooDeep (limit : Nat)
  /-- A name is bound twice in one group of patterns or one let block. -/
  | duplicate (name : String)
deriving DecidableEq, Repr

namespace Fault

def kind : Fault → String
  | mismatch .. => "TypeMismatch"
  | infinite .. => "OccursCheckFailed"
  | unbound _ => "UnboundVariable"
  | unsupported _ => "UnsupportedExpression"
  | tooDeep _ => "NestingTooDeep"
  | duplicate _ => "DuplicateBinding"

/-- The text of a fault. All types in it share one table of names. -/
def message : Fault → String
  | mismatch expected actual =>
    let (expected, names) := Names.print {} expected
    let (actual, _) := names.print actual
    "type mismatch: expected " ++ expected ++ ", found " ++ actual
  | infinite var type =>
    let (type, names) := Names.print {} type
    let (var, _) := names.print (.var var)
    "infinite type: " ++ var ++ " occurs in " ++ type
  | unbound name => "unbound variable `" ++ name ++ "`"
  | unsupported form => "unsupported expression: " ++ form
  | tooDeep limit => "expression nesting exceeds the limit of " ++ toString limit
  | duplicate name => "`" ++ name ++ "` is bound more than once"

/-- The fault of a failed unification. -/
def ofUnify : UnifyError → Fault
  | .mismatch expected actual | .unsettled expected actual => mismatch expected actual
  | .occurs var type => infinite var type

end Fault

/-- A fault and the place of the node it was found at. -/
structure TypeError where
  fault : Fault
  span : Span
deriving DecidableEq, Repr

/-- What is wrong with a collection of modules, or with a question about one. -/
inductive InputError where
  | moduleNotFound (module : String)
  | declarationNotFound (module declaration : String)
  /-- A name is declared twice in a module; the place is that of the second declaration. -/
  | duplicateDeclaration (module declaration : String) (span : Span)
  /-- Modules import each other in a circle, which the list goes round once. -/
  | importCycle (cycle : List String)
  /-- A module imports one that is not there. -/
  | unknownImport (module target : String)
deriving DecidableEq, Repr

namespace InputError

def kind : InputError → String
  | moduleNotFound _ => "ModuleNotFound"
  | declarationNotFound .. => "DeclarationNotFound"
  | duplicateDeclaration .. => "DuplicateDeclaration"
  | importCycle _ => "ImportCycle"
  | unknownImport .. => "UnknownImport"

def message : InputError → String
  | moduleNotFound module => "module `" ++ module ++ "` not found"
  | declarationNotFound module declaration =>
    "declaration `" ++ declaration ++ "` not found in module `" ++ module ++ "`"
  | duplicateDeclaration module declaration _ =>
    "declaration `" ++ declaration ++ "` is defined more than once in module `" ++ module ++ "`"
  | importCycle cycle => "import cycle: " ++ String.intercalate " -> " cycle
  | unknownImport module target =>
    "module `" ++ module ++ "` imports unknown module `" ++ target ++ "`"

/-- The place of the error, where it has one. -/
def span? : InputError → Option Span
  | duplicateDeclaration _ _ span => some span
  | _ => none

end InputError

inductive Error where
  | type (error : TypeError)
  | input (error : InputError)
  /-- A resource of the run was not available. -/
  | resource (reason : String)
deriving DecidableEq, Repr

namespace Error

def kind : Error → String
  | type error => error.fault.kind
  | input error => error.kind
  | resource _ => "Resource"

/-- The text of the error, with its category in front. -/
def message : Error → String
  | type error => "type error: " ++ error.fault.message
  | input error => "input error: " ++ error.message
  | resource reason => "resource error: " ++ reason

def span? : Error → Option Span
  | type error => some error.span
  | input error => error.span?
  | resource _ => none

def typeError? : Error → Option TypeError
  | type error => some error
  | _ => none

end Error

end RowInference
