import RowInference.Number.Double
import RowInference.Toml.Value

/-! # TOML numbers, dates and times -/

namespace RowInference.Toml

/-- The rest of the digits of a number. Underscores may stand between digits, and are dropped. -/
def scanDigits? (isDigit : Char → Bool) : List Char → Option (List Char × List Char)
  | [] => some ([], [])
  | '_' :: digit :: rest =>
    if isDigit digit then
      (scanDigits? isDigit rest).map fun (digits, rest) => (digit :: digits, rest)
    else none
  | c :: rest =>
    if isDigit c then (scanDigits? isDigit rest).map fun (digits, rest) => (c :: digits, rest)
    else if c = '_' then none
    else some ([], c :: rest)

def scanDigits1? (isDigit : Char → Bool) : List Char → Option (List Char × List Char)
  | c :: rest =>
    if isDigit c then (scanDigits? isDigit rest).map fun (digits, rest) => (c :: digits, rest) else none
  | [] => none

def ofDigits (base : Nat) (digits : List Char) : Nat :=
  digits.foldl (fun value digit =>
    value * base + (if digit.isDigit then digit.toNat - '0'.toNat else digit.toLower.toNat - 'a'.toNat + 10)) 0

/-- A sign, if there is one; whether it is a minus. -/
def scanSign : List Char → Bool × List Char
  | '+' :: rest => (false, rest)
  | '-' :: rest => (true, rest)
  | rest => (false, rest)

/-- Decimal digits that are a zero alone or do not start with one. -/
def scanWhole? : List Char → Option (List Char × List Char)
  | '0' :: rest => some (['0'], rest)
  | rest => scanDigits1? Char.isDigit rest

/-- An integer that fits 64 bits. -/
def integer? (value : Int) : Option Value :=
  if -0x8000000000000000 ≤ value ∧ value < 0x8000000000000000 then some (.integer value) else none

/-- A hexadecimal, octal or binary integer, after its first two characters. -/
def scanBased? (base : Nat) (isDigit : Char → Bool) (input : List Char) : Option (Value × List Char) := do
  let (digits, rest) ← scanDigits1? isDigit input
  let value ← integer? (ofDigits base digits)
  some (value, rest)

def scanFraction? : List Char → Option (Option (List Char) × List Char)
  | '.' :: rest => (scanDigits1? Char.isDigit rest).map fun (digits, rest) => (some digits, rest)
  | rest => some (none, rest)

def scanExponent? : List Char → Option (Option Int × List Char)
  | c :: rest =>
    if c = 'e' ∨ c = 'E' then do
      let (negative, rest) := scanSign rest
      let (digits, rest) ← scanDigits1? Char.isDigit rest
      let exponent : Int := ofDigits 10 digits
      some (some (if negative then -exponent else exponent), rest)
    else some (none, c :: rest)
  | [] => some (none, [])

/-- Whether a decimal number is too large for a double. -/
def overflows (digits : List Char) (exponent : Int) : Bool :=
  let significant := digits.dropWhile fun digit => digit == '0'
  let magnitude : Int := significant.length + exponent
  if significant.isEmpty || magnitude < 300 then false
  else if magnitude > 320 then true
  else if 0 ≤ exponent then (Double.ofNat (ofDigits 10 significant * Nat.pow 10 exponent.toNat)).isInfinite
  else (Double.ofRatio (ofDigits 10 significant) (Nat.pow 10 (-exponent).toNat)).isInfinite

/-- A decimal integer or a float. A positive float has to be finite. -/
def scanDecimal? (input : List Char) : Option (Value × List Char) := do
  let (negative, rest) := scanSign input
  let (whole, rest) ← scanWhole? rest
  let (fraction, rest) ← scanFraction? rest
  let (exponent, rest) ← scanExponent? rest
  match fraction, exponent with
  | none, none =>
    let value : Int := ofDigits 10 whole
    let value ← integer? (if negative then -value else value)
    some (value, rest)
  | _, _ =>
    let decimals := fraction.getD []
    if !negative && overflows (whole ++ decimals) (exponent.getD 0 - decimals.length) then none
    else some (.float (String.ofList (input.take (input.length - rest.length))), rest)

/-- A number with a word for its value. -/
def scanWordFloat? (input : List Char) : Option (Value × List Char) :=
  match (scanSign input).2 with
  | 'i' :: 'n' :: 'f' :: rest => some (.float (String.ofList (input.take (input.length - rest.length))), rest)
  | 'n' :: 'a' :: 'n' :: rest => some (.float (String.ofList (input.take (input.length - rest.length))), rest)
  | _ => none

def scanNumber? : List Char → Option (Value × List Char)
  | '0' :: 'x' :: rest => scanBased? 16 (fun c => c.isDigit || ('a' ≤ c && c ≤ 'f') || ('A' ≤ c && c ≤ 'F')) rest
  | '0' :: 'o' :: rest => scanBased? 8 (fun c => '0' ≤ c && c ≤ '7') rest
  | '0' :: 'b' :: rest => scanBased? 2 (fun c => c = '0' || c = '1') rest
  | input => (scanWordFloat? input).or (scanDecimal? input)

def scanTwo? (least greatest : Nat) : List Char → Option (Nat × List Char)
  | a :: b :: rest =>
    let value := ofDigits 10 [a, b]
    if a.isDigit ∧ b.isDigit ∧ least ≤ value ∧ value ≤ greatest then some (value, rest) else none
  | _ => none

def scanChar? (c : Char) : List Char → Option (List Char)
  | other :: rest => if other = c then some rest else none
  | [] => none

def daysOf (year month : Nat) : Nat :=
  if month = 2 then if year % 4 = 0 ∧ (year % 100 ≠ 0 ∨ year % 400 = 0) then 29 else 28
  else if month = 4 ∨ month = 6 ∨ month = 9 ∨ month = 11 then 30
  else 31

def scanDate? : List Char → Option (List Char)
  | a :: b :: c :: d :: '-' :: rest => do
    let year := ofDigits 10 [a, b, c, d]
    let (month, rest) ← scanTwo? 1 12 rest
    let rest ← scanChar? '-' rest
    let (_, rest) ← scanTwo? 1 (daysOf year month) rest
    if [a, b, c, d].all Char.isDigit then some rest else none
  | _ => none

/-- A time of day; returns what follows it. -/
def scanTime? (input : List Char) : Option (List Char) := do
  let (_, rest) ← scanTwo? 0 23 input
  let rest ← scanChar? ':' rest
  let (_, rest) ← scanTwo? 0 59 rest
  let rest ← scanChar? ':' rest
  let (_, rest) ← scanTwo? 0 60 rest
  match rest with
  | '.' :: fraction =>
    if (fraction.takeWhile Char.isDigit).isEmpty then some rest else some (fraction.dropWhile Char.isDigit)
  | _ => some rest

/-- What follows an offset from universal time, which may be missing. -/
def dropOffset (input : List Char) : List Char :=
  match input with
  | 'Z' :: rest | 'z' :: rest => rest
  | sign :: rest =>
    let after := do
      let (_, rest) ← scanTwo? 0 23 rest
      let rest ← scanChar? ':' rest
      let (_, rest) ← scanTwo? 0 59 rest
      some rest
    if sign = '+' ∨ sign = '-' then after.getD input else input
  | [] => []

/-- A date, a time, or both with or without an offset; returns what follows. -/
def scanDatetimeEnd? (input : List Char) : Option (List Char) :=
  match scanDate? input with
  | none => scanTime? input
  | some rest =>
    match rest with
    | [] => some []
    | mark :: time =>
      if mark = 'T' ∨ mark = 't' ∨ mark = ' ' then
        match scanTime? time with
        | some rest => some (dropOffset rest)
        | none => some rest
      else some rest

def scanDatetime? (input : List Char) : Option (Value × List Char) :=
  (scanDatetimeEnd? input).map fun rest =>
    (.datetime (String.ofList (input.take (input.length - rest.length))), rest)

end RowInference.Toml
