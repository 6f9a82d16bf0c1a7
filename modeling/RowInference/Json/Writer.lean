import RowInference.Json.Basic
import RowInference.Number.Shortest

/-! # Writing JSON texts

There are two layouts: a compact one on a single line, and an indented one with two blanks per level in which an
empty array or object stays on its line. Strings escape the quote, the backslash and control characters only.
-/

namespace RowInference.Json

def hexDigit (n : Nat) : Char := Nat.digitChar (n % 16)

/-- How a string writes a character. -/
def escapeChar (c : Char) : String :=
  if c = '"' then "\\\""
  else if c = '\\' then "\\\\"
  else if c = '\n' then "\\n"
  else if c = '\r' then "\\r"
  else if c = '\t' then "\\t"
  else if c = '\x08' then "\\b"
  else if c = '\x0c' then "\\f"
  else if c < ' ' then String.ofList ['\\', 'u', '0', '0', hexDigit (c.toNat / 16), hexDigit c.toNat]
  else c.toString

def quote (text : String) : String :=
  text.foldl (fun out c => out ++ escapeChar c) "\"" ++ "\""

/-- The text of a double; undefined numbers have none and become `null`. -/
def floatText (x : Double) : String := x.text?.getD "null"

mutual

/-- Append the compact text of a value. -/
def write (out : String) : Json → String
  | .null => out ++ "null"
  | .bool value => out ++ (if value then "true" else "false")
  | .int value => out ++ toString value
  | .float value => out ++ floatText value
  | .string value => out ++ quote value
  | .array [] => out ++ "[]"
  | .array (item :: rest) => writeItems (write (out ++ "[") item) rest ++ "]"
  | .object [] => out ++ "\x7b\x7d"
  | .object ((name, value) :: rest) =>
    writeFields (write (out ++ "\x7b" ++ quote name ++ ":") value) rest ++ "\x7d"

def writeItems (out : String) : List Json → String
  | [] => out
  | item :: rest => writeItems (write (out ++ ",") item) rest

def writeFields (out : String) : List (String × Json) → String
  | [] => out
  | (name, value) :: rest => writeFields (write (out ++ "," ++ quote name ++ ":") value) rest

end

def compact (value : Json) : String := write "" value

/-- A new line at a level of nesting. -/
def newline (level : Nat) : String := "\n" ++ String.ofList (List.replicate (2 * level) ' ')

mutual

/-- Append the indented text of a value at a level of nesting. -/
def writeIndented (level : Nat) (out : String) : Json → String
  | .array [] => out ++ "[]"
  | .array (item :: rest) =>
    indentItems level (writeIndented (level + 1) (out ++ "[" ++ newline (level + 1)) item) rest
      ++ newline level ++ "]"
  | .object [] => out ++ "\x7b\x7d"
  | .object ((name, value) :: rest) =>
    indentFields level
      (writeIndented (level + 1) (out ++ "\x7b" ++ newline (level + 1) ++ quote name ++ ": ") value)
      rest ++ newline level ++ "\x7d"
  | value => write out value

def indentItems (level : Nat) (out : String) : List Json → String
  | [] => out
  | item :: rest =>
    indentItems level (writeIndented (level + 1) (out ++ "," ++ newline (level + 1)) item) rest

def indentFields (level : Nat) (out : String) : List (String × Json) → String
  | [] => out
  | (name, value) :: rest =>
    indentFields level
      (writeIndented (level + 1) (out ++ "," ++ newline (level + 1) ++ quote name ++ ": ") value) rest

end

def pretty (value : Json) : String := writeIndented 0 "" value

end RowInference.Json
