/-! # Log levels -/

namespace RowInference

inductive Level where
  | trace
  | debug
  | info
  | warn
  | error
deriving DecidableEq, Repr, Inhabited

namespace Level

def rank : Level → Nat
  | trace => 0
  | debug => 1
  | info => 2
  | warn => 3
  | error => 4

/-- The level in capitals, as log lines show it. -/
def label : Level → String
  | trace => "TRACE"
  | debug => "DEBUG"
  | info => "INFO"
  | warn => "WARN"
  | error => "ERROR"

/-- Read the name of a level. Only the case of ASCII letters does not matter. The error is the text that reports an
unknown name. -/
def ofName (name : String) : Except String Level :=
  match name.map Char.toLower with
  | "trace" => .ok trace
  | "debug" => .ok debug
  | "info" => .ok info
  | "warn" | "warning" => .ok warn
  | "error" => .ok error
  | other => .error ("unknown log level `" ++ other ++ "`")

/-- Whether a line of this level is shown when `threshold` is the least level wanted. -/
def shownAt (level threshold : Level) : Bool := threshold.rank ≤ level.rank

end Level

end RowInference
