import RowInference.Json.Number

/-! # Reading JSON texts

`Json.readFirst?` reads the value at the front of a text and returns what follows it, so that a caller can judge
the value before it looks at the rest. Arrays and objects may be nested 127 deep. A string may not hold control
characters, nor escapes for half a surrogate pair.
-/

namespace RowInference.Json

/-- Whether a character may stand between the parts of a text. -/
def isSpace (c : Char) : Bool := c = ' ' || c = '\n' || c = '\t' || c = '\r'

def skipSpace (input : List Char) : List Char := input.dropWhile isSpace

def hexValue? (c : Char) : Option Nat :=
  if '0' ≤ c ∧ c ≤ '9' then some (c.toNat - '0'.toNat)
  else if 'a' ≤ c ∧ c ≤ 'f' then some (c.toNat - 'a'.toNat + 10)
  else if 'A' ≤ c ∧ c ≤ 'F' then some (c.toNat - 'A'.toNat + 10)
  else none

/-- The code unit written with four hexadecimal digits. -/
def unit? (a b c d : Char) : Option Nat := do
  return ((← hexValue? a) * 16 + (← hexValue? b)) * 256 + ((← hexValue? c) * 16 + (← hexValue? d))

/-- The character of an escape of one letter. -/
def escaped? : Char → Option Char
  | '"' => some '"'
  | '\\' => some '\\'
  | '/' => some '/'
  | 'b' => some '\x08'
  | 'f' => some '\x0c'
  | 'n' => some '\n'
  | 'r' => some '\r'
  | 't' => some '\t'
  | _ => none

/-- Split a string body from the text after its closing quote, leaving escapes as they are. -/
def spanString? : List Char → Option (List Char × List Char)
  | [] => none
  | '"' :: rest => some ([], rest)
  | '\\' :: c :: rest => (spanString? rest).map fun (body, rest) => ('\\' :: c :: body, rest)
  | c :: rest => if c < ' ' then none else (spanString? rest).map fun (body, rest) => (c :: body, rest)

/-- Replace the escapes in a string body. -/
def unescape? : List Char → Option (List Char)
  | [] => some []
  | '\\' :: 'u' :: a :: b :: c :: d :: rest => do
    let first ← unit? a b c d
    if 0xD800 ≤ first ∧ first < 0xDC00 then
      match rest with
      | '\\' :: 'u' :: a :: b :: c :: d :: rest =>
        let second ← unit? a b c d
        if 0xDC00 ≤ second ∧ second < 0xE000 then
          let code := 0x10000 + (first - 0xD800) * 0x400 + (second - 0xDC00)
          return Char.ofNat code :: (← unescape? rest)
        else none
      | _ => none
    else if 0xDC00 ≤ first ∧ first < 0xE000 then none
    else return Char.ofNat first :: (← unescape? rest)
  | '\\' :: c :: rest => do return (← escaped? c) :: (← unescape? rest)
  | c :: rest => do return c :: (← unescape? rest)

def scanString? (input : List Char) : Option (String × List Char) := do
  let (body, rest) ← spanString? input
  return (String.ofList (← unescape? body), rest)

def scanWord? (word : List Char) (value : Json) (input : List Char) : Option (Json × List Char) :=
  if word.isPrefixOf input then some (value, input.drop word.length) else none

def scanKey? (input : List Char) : Option (String × List Char) :=
  match skipSpace input with
  | '"' :: rest => do
    let (key, rest) ← scanString? rest
    match skipSpace rest with
    | ':' :: rest => some (key, rest)
    | _ => none
  | _ => none

mutual

/-- Read a value. Every step uses up a character, so the length of the text is enough `fuel`; `depth` is how
many more brackets may be opened. -/
def readValue? (fuel depth : Nat) (input : List Char) : Option (Json × List Char) :=
  match fuel with
  | 0 => none
  | fuel + 1 =>
    match skipSpace input with
    | 'n' :: rest => scanWord? "null".toList .null ('n' :: rest)
    | 't' :: rest => scanWord? "true".toList (.bool true) ('t' :: rest)
    | 'f' :: rest => scanWord? "false".toList (.bool false) ('f' :: rest)
    | '"' :: rest => (scanString? rest).map fun (text, rest) => (.string text, rest)
    | '[' :: rest =>
      match depth with
      | 0 => none
      | depth + 1 =>
        match skipSpace rest with
        | ']' :: rest => some (.array [], rest)
        | rest => readItems? fuel depth [] rest
    | '\x7b' :: rest =>
      match depth with
      | 0 => none
      | depth + 1 =>
        match skipSpace rest with
        | '\x7d' :: rest => some (.object [], rest)
        | rest => readFields? fuel depth [] rest
    | input => scanNumber? input

/-- Read the rest of an array after the items read so far, last first. -/
def readItems? (fuel depth : Nat) (items : List Json) (input : List Char) :
    Option (Json × List Char) :=
  match fuel with
  | 0 => none
  | fuel + 1 => do
    let (item, rest) ← readValue? fuel depth input
    match skipSpace rest with
    | ',' :: rest => readItems? fuel depth (item :: items) rest
    | ']' :: rest => some (.array (item :: items).reverse, rest)
    | _ => none

/-- Read the rest of an object after the fields read so far, last first. -/
def readFields? (fuel depth : Nat) (fields : List (String × Json)) (input : List Char) :
    Option (Json × List Char) :=
  match fuel with
  | 0 => none
  | fuel + 1 => do
    let (key, rest) ← scanKey? input
    let (value, rest) ← readValue? fuel depth rest
    match skipSpace rest with
    | ',' :: rest => readFields? fuel depth ((key, value) :: fields) rest
    | '\x7d' :: rest => some (.object ((key, value) :: fields).reverse, rest)
    | _ => none

end

/-- How deep arrays and objects may be nested. -/
def depthLimit : Nat := 127

/-- Read the value at the front of a text, and return the text after it. -/
def readFirst? (text : String) : Option (Json × List Char) :=
  let input := text.toList
  readValue? (2 * input.length + 2) depthLimit input

/-- Read a text that holds one value and nothing else. -/
def read? (text : String) : Option Json := do
  let (value, rest) ← readFirst? text
  if (skipSpace rest).isEmpty then some value else none

end RowInference.Json
