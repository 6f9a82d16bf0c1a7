import RowInference.Log.Level
import RowInference.Types.Outline
import RowInference.Unification

/-! # Log events

What happens during a run is recorded as data; the lines of the log are made from the record afterwards. A line
never passes on characters with which a terminal could be controlled.
-/

namespace RowInference

/-- Something worth logging. -/
inductive Event where
  | started (program version platform : String)
  | inferring (count : Nat)
  | ordered (modules : List String)
  | checking (module : String)
  /-- An equation between types was solved by binding variables. -/
  | solved (expected actual : Ty) (found : Substitution)
  | refused (error : UnifyError)
  | declared (name : String) (scheme : Scheme)
  | succeeded

namespace Event

def level : Event → Level
  | checking _ => .info
  | solved .. | refused _ => .trace
  | _ => .debug

def message : Event → String
  | started program version platform => program ++ " " ++ version ++ " on " ++ platform
  | inferring count => "Inferring " ++ toString count ++ " module(s)"
  | ordered modules => "module order: " ++ String.intercalate ", " modules
  | checking module => "checking module " ++ module
  | solved expected actual found =>
    "unify " ++ expected.text ++ " ~ " ++ actual.text ++ " => " ++ found.text
  | refused error => "unify failed: " ++ error.message
  | declared name scheme => name ++ " : " ++ scheme.text
  | succeeded => "Inference successful"

/-- How a log line shows a character: those that control a terminal are spelled out. -/
def shownChar (c : Char) : String :=
  let code := c.toNat
  if code = 0x1B ∨ code = 0x07 ∨ code = 0x08 ∨ code = 0x0C ∨ code = 0x7F then
    "\\x" ++ (if code < 16 then "0" else "") ++ Text.hex code
  else if 0x80 ≤ code ∧ code ≤ 0x9F then "\\u\x7b" ++ Text.hex code ++ "\x7d"
  else c.toString

/-- The line of an event: its level right-aligned to five columns, then its text. -/
def line (event : Event) : String :=
  let label := event.level.label
  String.ofList (List.replicate (5 - label.length) ' ') ++ label ++ " "
    ++ String.join (event.message.toList.map shownChar) ++ "\n"

/-- The log of events in order, as far as they are important enough. -/
def log (threshold : Level) (events : List Event) : String :=
  String.join ((events.filter fun event => event.level.shownAt threshold).map line)

end Event

end RowInference
