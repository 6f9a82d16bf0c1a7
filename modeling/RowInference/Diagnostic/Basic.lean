import RowInference.Diagnostic.Code
import RowInference.Typing.Error

/-! # Diagnostics

A diagnostic is what a user gets to see of an error: its text, code, help and place.
-/

namespace RowInference

/-- How serious a diagnostic is. -/
inductive Severity where
  | error
  | warning
  | info
  | hint
deriving DecidableEq, Repr, Inhabited

def Severity.name : Severity → String
  | error => "error"
  | warning => "warning"
  | info => "info"
  | hint => "hint"

structure Diagnostic where
  severity : Severity := .error
  /-- The code, or an empty text if there is none. -/
  code : String
  message : String
  /-- What to do, or an empty text. -/
  help : String := ""
  span : Option Span := none
deriving DecidableEq, Repr

namespace Diagnostic

/-- Set the place; an unknown one is dropped. -/
def placedAt (diagnostic : Diagnostic) (span : Option Span) : Diagnostic :=
  { diagnostic with span := span.filter fun span => !span.isDummy }

/-- An error of some kind, with the code and help for that kind. -/
def ofKind (kind message : String) (span : Option Span) : Diagnostic :=
  let (code, help) := match ErrorCode.forKind? kind with
    | some entry => (entry.code, entry.help)
    | none => ("E0000", "")
  Diagnostic.placedAt { code, message, help } span

/-- The diagnostic of an error. Type and input errors are reported without their category. -/
def ofError (error : Error) : Diagnostic :=
  match error with
  | .type cause => ofKind cause.fault.kind cause.fault.message (some cause.span)
  | .input cause => ofKind cause.kind cause.message cause.span?
  | .resource _ => ofKind error.kind error.message none

def summary (diagnostic : Diagnostic) : String :=
  diagnostic.severity.name ++ " [" ++ diagnostic.code ++ "] " ++ diagnostic.message

end Diagnostic

end RowInference
