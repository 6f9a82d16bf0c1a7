/-! # TOML strings

Strings come in four forms: with or without escapes, and on one line or on several. Reading accepts all of them.
Writing takes the first form that needs no escapes, and otherwise escapes.
-/

namespace RowInference.Toml

/-- The rest of a text after a line end. -/
def lineEnd? : List Char → Option (List Char)
  | '\n' :: rest => some rest
  | '\r' :: '\n' :: rest => some rest
  | _ => none

/-- A blank inside a line. -/
def isBlank (c : Char) : Bool := c = ' ' || c = '\t'

/-- A character that strings and comments can hold as it is. -/
def isPlain (c : Char) : Bool := c = '\t' || (' ' ≤ c && c ≠ '\x7f')

/-- What a backslash and one character stand for. -/
def escaped? : Char → Option Char
  | 'b' => some '\x08'
  | 't' => some '\t'
  | 'n' => some '\n'
  | 'f' => some '\x0c'
  | 'r' => some '\r'
  | '"' => some '"'
  | '\\' => some '\\'
  | _ => none

def hexValue? (c : Char) : Option Nat :=
  if c.isDigit then some (c.toNat - '0'.toNat)
  else if 'a' ≤ c ∧ c ≤ 'f' then some (c.toNat - 'a'.toNat + 10)
  else if 'A' ≤ c ∧ c ≤ 'F' then some (c.toNat - 'A'.toNat + 10)
  else none

/-- The character with a hexadecimal code. -/
def codePoint? (digits : List Char) : Option Char := do
  let values ← digits.mapM hexValue?
  let code := values.foldl (fun code digit => code * 16 + digit) 0
  if code < 0xD800 ∨ (0xDFFF < code ∧ code < 0x110000) then some (Char.ofNat code) else none

def put (c : Char) : Option (List Char × List Char) → Option (List Char × List Char)
  | some (text, rest) => some (c :: text, rest)
  | none => none

/-- Read a string with escapes, after its opening quote. -/
def scanBasic? : List Char → Option (List Char × List Char)
  | [] => none
  | '"' :: rest => some ([], rest)
  | '\\' :: 'U' :: a :: b :: c :: d :: e :: f :: g :: h :: rest =>
    (codePoint? [a, b, c, d, e, f, g, h]).bind fun c => put c (scanBasic? rest)
  | '\\' :: 'u' :: a :: b :: c :: d :: rest =>
    (codePoint? [a, b, c, d]).bind fun c => put c (scanBasic? rest)
  | '\\' :: c :: rest => (escaped? c).bind fun c => put c (scanBasic? rest)
  | c :: rest => if isPlain c && c ≠ '\\' then put c (scanBasic? rest) else none

def scanLiteral? : List Char → Option (List Char × List Char)
  | [] => none
  | '\x27' :: rest => some ([], rest)
  | c :: rest => if isPlain c then put c (scanLiteral? rest) else none

/-- Read a string with escapes on several lines, after its opening quotes. One or two quotes may stand before the
three that end it. A backslash at the end of a line drops the line end and all blanks up to the next text; `skipping`
says that this is going on. -/
def scanMultiBasic? (skipping : Bool) : List Char → Option (List Char × List Char)
  | [] => none
  | '"' :: '"' :: '"' :: '"' :: '"' :: rest => some (['"', '"'], rest)
  | '"' :: '"' :: '"' :: '"' :: rest => some (['"'], rest)
  | '"' :: '"' :: '"' :: rest => some ([], rest)
  | '"' :: rest => put '"' (scanMultiBasic? false rest)
  | '\\' :: 'U' :: a :: b :: c :: d :: e :: f :: g :: h :: rest =>
    (codePoint? [a, b, c, d, e, f, g, h]).bind fun c => put c (scanMultiBasic? false rest)
  | '\\' :: 'u' :: a :: b :: c :: d :: rest =>
    (codePoint? [a, b, c, d]).bind fun c => put c (scanMultiBasic? false rest)
  | '\\' :: c :: rest =>
    match escaped? c, lineEnd? ((c :: rest).dropWhile isBlank) with
    | some c, _ => put c (scanMultiBasic? false rest)
    | none, some _ => scanMultiBasic? true (c :: rest)
    | none, none => none
  | '\r' :: '\n' :: rest =>
    if skipping then scanMultiBasic? true rest else put '\n' (scanMultiBasic? false rest)
  | '\n' :: rest => if skipping then scanMultiBasic? true rest else put '\n' (scanMultiBasic? false rest)
  | c :: rest =>
    if skipping && isBlank c then scanMultiBasic? true rest
    else if isPlain c && c ≠ '\\' then put c (scanMultiBasic? false rest)
    else none

/-- Read a string without escapes on several lines, after its opening quotes. -/
def scanMultiLiteral? : List Char → Option (List Char × List Char)
  | [] => none
  | '\x27' :: '\x27' :: '\x27' :: '\x27' :: '\x27' :: rest => some (['\x27', '\x27'], rest)
  | '\x27' :: '\x27' :: '\x27' :: '\x27' :: rest => some (['\x27'], rest)
  | '\x27' :: '\x27' :: '\x27' :: rest => some ([], rest)
  | '\r' :: '\n' :: rest => put '\n' (scanMultiLiteral? rest)
  | '\n' :: rest => put '\n' (scanMultiLiteral? rest)
  | c :: rest => if isPlain c then put c (scanMultiLiteral? rest) else none

/-- A line end right after the opening quotes does not belong to the string. -/
def dropLineEnd (input : List Char) : List Char := (lineEnd? input).getD input

def scanString? : List Char → Option (String × List Char)
  | '"' :: '"' :: '"' :: rest => (scanMultiBasic? false (dropLineEnd rest)).map fun (t, r) => (String.ofList t, r)
  | '"' :: rest => (scanBasic? rest).map fun (text, rest) => (String.ofList text, rest)
  | '\x27' :: '\x27' :: '\x27' :: rest => (scanMultiLiteral? (dropLineEnd rest)).map fun (t, r) => (String.ofList t, r)
  | '\x27' :: rest => (scanLiteral? rest).map fun (text, rest) => (String.ofList text, rest)
  | _ => none

def longestRun (c : Char) (text : List Char) : Nat :=
  (text.foldl (fun (longest, current) other =>
    if other = c then (max longest (current + 1), current + 1) else (longest, 0)) (0, 0)).1

/-- A character that can only be written as an escape; a tab and a line end have other ways. -/
def isControl (c : Char) : Bool := (c < ' ' && c ≠ '\t' && c ≠ '\n') || c = '\x7f'

/-- The escape of a character by its code. -/
def codeEscape (c : Char) : String :=
  let digits := (Nat.toDigits 16 c.toNat).map Char.toUpper
  "\\u" ++ String.ofList (List.replicate (4 - digits.length) '0' ++ digits)

/-- The inside of a string with escapes. On several lines line ends and up to two quotes in a row stay as they are;
`run` is the number of quotes just written. -/
def escape (several : Bool) (run : Nat) : List Char → String
  | [] => ""
  | '"' :: rest =>
    if several && run < 2 then "\"" ++ escape several (run + 1) rest else "\\\"" ++ escape several 0 rest
  | '\\' :: rest => "\\\\" ++ escape several 0 rest
  | '\x08' :: rest => "\\b" ++ escape several 0 rest
  | '\t' :: rest => "\\t" ++ escape several 0 rest
  | '\x0c' :: rest => "\\f" ++ escape several 0 rest
  | '\r' :: rest => "\\r" ++ escape several 0 rest
  | '\n' :: rest => (if several then "\n" else "\\n") ++ escape several 0 rest
  | c :: rest => (if isControl c then codeEscape c else c.toString) ++ escape several 0 rest

def quote (text : String) : String :=
  let chars := text.toList
  let control := chars.any isControl
  let backslash := chars.contains '\\'
  let lines := chars.contains '\n'
  let opening := if lines then "\n" else ""
  if !control && !backslash && longestRun '"' chars == 0 && !lines then
    "\"" ++ escape false 0 chars ++ "\""
  else if !control && longestRun '\x27' chars == 0 && !lines then "'" ++ text ++ "'"
  else if !control && !backslash && longestRun '"' chars ≤ 2 then
    "\"\"\"" ++ opening ++ escape true 0 chars ++ "\"\"\""
  else if !control && longestRun '\x27' chars ≤ 2 then "'''" ++ opening ++ text ++ "'''"
  else if lines then "\"\"\"" ++ opening ++ escape true 0 chars ++ "\"\"\""
  else "\"" ++ escape false 0 chars ++ "\""

end RowInference.Toml
