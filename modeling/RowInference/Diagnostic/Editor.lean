import RowInference.Diagnostic.Basic
import RowInference.Json.Writer

/-! # Diagnostics for editors

Editors take diagnostics as JSON, in the form of the language server protocol: lines and columns count from zero
and have 32 bits.
-/

namespace RowInference

def Severity.editorNumber : Severity → Nat
  | error => 1
  | warning => 2
  | info => 3
  | hint => 4

/-- A line or column counted from zero, cut to 32 bits. -/
def editorCoordinate (coordinate : UInt64) : Nat := (coordinate.toNat - 1) % 0x100000000

def Position.editorJson (position : Position) : Json :=
  .object [("line", .nat (editorCoordinate position.line)),
    ("character", .nat (editorCoordinate position.column))]

def Span.editorJson (span : Span) : Json :=
  .object [("start", span.start.editorJson), ("end", span.stop.editorJson)]

namespace Diagnostic

/-- The diagnostic for editors; help is left out if there is none. -/
def editorJson (diagnostic : Diagnostic) : Json :=
  let help := if diagnostic.help.isEmpty then [] else [("help", Json.string diagnostic.help)]
  .object ([("range", .orNull Span.editorJson diagnostic.span),
    ("severity", .nat diagnostic.severity.editorNumber),
    ("code", .string diagnostic.code),
    ("source", .string "elm-infer"),
    ("message", .string diagnostic.message)] ++ help)

end Diagnostic

end RowInference
