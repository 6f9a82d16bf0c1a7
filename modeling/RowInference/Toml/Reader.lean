import RowInference.Toml.Quoted
import RowInference.Toml.Scalar

/-! # Reading TOML

A document is read line by line: comments, headers and keys with values. Arrays may span lines, inline tables may
not. Arrays and inline tables can be nested and keys can have parts up to a limit.
-/

namespace RowInference.Toml

def skipBlank (input : List Char) : List Char := input.dropWhile isBlank

/-- The rest of a text after a comment, if one stands at the front. -/
def skipComment : List Char → List Char
  | '#' :: rest => rest.dropWhile isPlain
  | rest => rest

/-- What follows the end of a line, which blanks and a comment may precede. -/
def endLine? (input : List Char) : Option (List Char) :=
  match skipComment (skipBlank input) with
  | [] => some []
  | rest => lineEnd? rest

/-- What follows blanks, comments and line ends. A comment has to end at a line end. -/
def skipLines? (fuel : Nat) (input : List Char) : Option (List Char) :=
  match fuel with
  | 0 => none
  | fuel + 1 =>
    match skipBlank input with
    | [] => some []
    | c :: rest =>
      if c = '#' ∨ c = '\n' ∨ c = '\r' then (lineEnd? (skipComment (c :: rest))).bind (skipLines? fuel)
      else some (c :: rest)

/-- Arrays, inline tables and parts of keys number fewer than this. -/
def nestingLimit : Nat := 80

def isKeyChar (c : Char) : Bool := c.isAlphanum || c = '-' || c = '_'

def scanKeyPart? : List Char → Option (String × List Char)
  | '"' :: rest => (scanBasic? rest).map fun (text, rest) => (String.ofList text, rest)
  | '\x27' :: rest => (scanLiteral? rest).map fun (text, rest) => (String.ofList text, rest)
  | input =>
    match input.takeWhile isKeyChar with
    | [] => none
    | part => some (String.ofList part, input.dropWhile isKeyChar)

/-- The parts of a key, blanks around them included. -/
def scanKeyParts? (fuel : Nat) (input : List Char) : Option (List String × List Char) :=
  match fuel with
  | 0 => none
  | fuel + 1 => do
    let (part, rest) ← scanKeyPart? (skipBlank input)
    match skipBlank rest with
    | '.' :: rest =>
      let (parts, rest) ← scanKeyParts? fuel rest
      some (part :: parts, rest)
    | rest => some ([part], rest)

/-- A key: the path to its table and its last part. -/
def scanKey? (input : List Char) : Option ((List String × String) × List Char) := do
  let (parts, rest) ← scanKeyParts? (input.length + 1) input
  match parts.reverse with
  | [] => none
  | last :: before => if parts.length < nestingLimit then some ((before.reverse, last), rest) else none

def scanBoolean? : List Char → Option (Value × List Char)
  | 't' :: 'r' :: 'u' :: 'e' :: rest => some (.boolean true, rest)
  | 'f' :: 'a' :: 'l' :: 's' :: 'e' :: rest => some (.boolean false, rest)
  | _ => none

mutual

/-- Read a value that is not blank in front. Every two steps use up a character; `depth` is how many arrays and
inline tables are around it. -/
def readValue? (fuel depth : Nat) (input : List Char) : Option (Value × List Char) :=
  match fuel with
  | 0 => none
  | fuel + 1 =>
    match input with
    | [] => none
    | '[' :: rest => if depth + 1 < nestingLimit then readItems? fuel (depth + 1) [] rest else none
    | '\x7b' :: rest => if depth + 1 < nestingLimit then readInline? fuel (depth + 1) rest else none
    | c :: rest =>
      if c = '"' ∨ c = '\x27' then (scanString? (c :: rest)).map fun (text, rest) => (.string text, rest)
      else if c = 't' ∨ c = 'f' then scanBoolean? (c :: rest)
      else if c.isDigit ∨ c = '+' ∨ c = '-' ∨ c = 'i' ∨ c = 'n' then
        (scanDatetime? (c :: rest)).or (scanNumber? (c :: rest))
      else none

/-- Read the rest of an array after the items read so far, last first. -/
def readItems? (fuel depth : Nat) (items : List Value) (input : List Char) : Option (Value × List Char) :=
  match fuel with
  | 0 => none
  | fuel + 1 => do
    match ← skipLines? (input.length + 1) input with
    | ']' :: rest => some (.array items.reverse, rest)
    | input =>
      let (item, rest) ← readValue? fuel depth input
      match ← skipLines? (rest.length + 1) rest with
      | ']' :: rest => some (.array (item :: items).reverse, rest)
      | ',' :: rest => readItems? fuel depth (item :: items) rest
      | _ => none

/-- Read an inline table after its opening brace. -/
def readInline? (fuel depth : Nat) (input : List Char) : Option (Value × List Char) :=
  match fuel with
  | 0 => none
  | fuel + 1 =>
    match skipBlank input with
    | '\x7d' :: rest => some (.table .closed [], rest)
    | input => readEntries? fuel depth [] input

/-- Read the rest of an inline table after the entries read so far. -/
def readEntries? (fuel depth : Nat) (entries : Entries) (input : List Char) : Option (Value × List Char) :=
  match fuel with
  | 0 => none
  | fuel + 1 => do
    let ((path, key), rest) ← scanKey? input
    let rest ← scanChar? '=' rest
    let (value, rest) ← readValue? fuel depth (skipBlank rest)
    let entries ← entries.insert? key value path
    match skipBlank rest with
    | '\x7d' :: rest => some (.table .closed entries, rest)
    | ',' :: rest => readEntries? fuel depth entries rest
    | _ => none

end

/-- Read a header after its first bracket: that of a table, or with two brackets that of a table in an array. -/
def readHeader? (document : Document) (input : List Char) : Option (Document × List Char) :=
  match input with
  | '[' :: rest => do
    let ((path, key), rest) ← scanKey? rest
    match rest with
    | ']' :: ']' :: rest =>
      let document ← document.openNext? path key
      some (document, rest)
    | _ => none
  | input => do
    let ((path, key), rest) ← scanKey? input
    match rest with
    | ']' :: rest =>
      let document ← document.openTable? path key
      some (document, rest)
    | _ => none

def readEntry? (document : Document) (input : List Char) : Option (Document × List Char) := do
  let ((path, key), rest) ← scanKey? input
  let rest ← scanChar? '=' rest
  let (value, rest) ← readValue? (2 * rest.length + 2) 0 (skipBlank rest)
  let document ← document.insert? path key value
  some (document, rest)

def readLines? (fuel : Nat) (document : Document) (input : List Char) : Option Document :=
  match fuel with
  | 0 => none
  | fuel + 1 =>
    match skipBlank input with
    | [] => some document
    | '[' :: rest => do
      let (document, rest) ← readHeader? document rest
      readLines? fuel document (← endLine? rest)
    | c :: rest =>
      if c = '#' ∨ c = '\n' ∨ c = '\r' then (endLine? (c :: rest)).bind (readLines? fuel document)
      else do
        let (document, rest) ← readEntry? document (c :: rest)
        readLines? fuel document (← endLine? rest)

/-- The tables of a TOML text. A byte order mark in front is ignored. -/
def read? (text : String) : Option Entries :=
  let input := match text.toList with
    | '\uFEFF' :: rest => rest
    | rest => rest
  (readLines? (input.length + 1) {} input).map Document.root

end RowInference.Toml
