import RowInference.CommandLine.Run

/-! # The program

Reads the files that a run may need, runs it and writes what it comes to.
-/

namespace RowInference

/-- A file with its content, if it can be read. -/
def readFile? (path : String) : IO (Option (String × String)) := do
  try
    return some (path, ← IO.FS.readFile path)
  catch _ => return none

/-- What to tell a user whose arguments are not understood. -/
def usage : String :=
  "Usage: elm-infer [--config PATH] [-v] [--no-color] [--diagnostics text|json] "
    ++ "(check FILE [--source SOURCE] | types FILE [--json] | config | --version)\n"

end RowInference

def main (arguments : List String) : IO UInt32 := do
  let files ← (RowInference.CommandLine.paths arguments).filterMapM RowInference.readFile?
  let environment ← IO.getEnv RowInference.Settings.levelVariable
  match RowInference.CommandLine.run? ⟨files⟩ environment arguments with
  | none =>
    IO.eprint RowInference.usage
    return 2
  | some outcome =>
    IO.print outcome.output
    IO.eprint outcome.errors
    if let some reason := outcome.failure then IO.eprintln ("Error: " ++ reason)
    return outcome.exit
