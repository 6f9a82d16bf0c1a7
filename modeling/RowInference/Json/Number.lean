import RowInference.Json.Basic

/-! # Numbers in JSON texts

A number without point and exponent is an integer if it fits 64 bits, and a double otherwise. Digits of a double
are collected in a 64-bit significand for as long as they fit; integer digits that no longer fit only count as
powers of ten, and fraction digits that no longer fit are ignored.
-/

namespace RowInference.Json

def wordSize : Nat := 0x10000000000000000

def digitValue (c : Char) : Nat := c.toNat - '0'.toNat

/-- Split off the decimal digits at the front. -/
def spanDigits (input : List Char) : List Char × List Char :=
  (input.takeWhile Char.isDigit, input.dropWhile Char.isDigit)

/-- Append digits to a significand while it fits 64 bits, and return the digits that were left. -/
def collect (significand : Nat) : List Char → Nat × List Char
  | [] => (significand, [])
  | digit :: rest =>
    let next := significand * 10 + digitValue digit
    if next < wordSize then collect next rest else (significand, digit :: rest)

def digitsValue (digits : List Char) : Nat :=
  digits.foldl (fun value digit => value * 10 + digitValue digit) 0

/-- The largest exponent that is still counted. -/
def exponentLimit : Nat := 0x7FFFFFFF

/-- The decimal parts of a number: digits before the point, after it, and the exponent with its sign. -/
structure Decimal where
  negative : Bool
  whole : List Char
  fraction : Option (List Char)
  exponent : Option (Bool × List Char)

/-- The sign and digits of an exponent, if one follows. -/
def scanExponent? : List Char → Option (Option (Bool × List Char) × List Char)
  | [] => some (none, [])
  | c :: rest =>
    if c = 'e' ∨ c = 'E' then
      let (negative, rest) := match rest with
        | '-' :: rest => (true, rest)
        | '+' :: rest => (false, rest)
        | rest => (false, rest)
      match spanDigits rest with
      | ([], _) => none
      | (digits, rest) => some (some (negative, digits), rest)
    else some (none, c :: rest)

/-- The digits after a decimal point, if one follows. -/
def scanFraction? : List Char → Option (Option (List Char) × List Char)
  | '.' :: rest =>
    match spanDigits rest with
    | ([], _) => none
    | (digits, rest) => some (some digits, rest)
  | rest => some (none, rest)

/-- The parts of the number at the front of a text. A leading zero stands alone. -/
def scanDecimal? (input : List Char) : Option (Decimal × List Char) := do
  let (negative, input) := match input with
    | '-' :: rest => (true, rest)
    | rest => (false, rest)
  let (whole, input) := spanDigits input
  match whole with
  | [] => none
  | '0' :: _ :: _ => none
  | _ =>
    let (fraction, input) ← scanFraction? input
    let (exponent, input) ← scanExponent? input
    some (⟨negative, whole, fraction, exponent⟩, input)

def signed (negative : Bool) (x : Double) : Double := if negative then x.neg else x

/-- The double of a number with a fraction, an exponent or too many digits. -/
def Decimal.toDouble? (number : Decimal) : Option Double := do
  let (significand, dropped) := collect 0 number.whole
  let (significand, unread) := collect significand (number.fraction.getD [])
  let kept := (number.fraction.getD []).length - unread.length
  let scale : Int := (dropped.length : Int) - (kept : Int)
  match number.exponent with
  | none => (Double.ofDecimal? significand scale).map (signed number.negative)
  | some (down, digits) =>
    let exponent := digitsValue digits
    if exponent > exponentLimit then
      if significand ≠ 0 ∧ !down then none else some (signed number.negative ⟨0⟩)
    else
      let exponent : Int := if down then scale - exponent else scale + exponent
      (Double.ofDecimal? significand exponent).map (signed number.negative)

/-- The value of a number: an integer if it is written as one and fits 64 bits. -/
def Decimal.toJson? (number : Decimal) : Option Json :=
  match number.fraction, number.exponent, collect 0 number.whole with
  | none, none, (significand, []) =>
    if number.negative then
      if 0 < significand ∧ significand ≤ 0x8000000000000000 then some (.int (-significand))
      else some (.float (Double.ofNat significand).neg)
    else some (.int significand)
  | _, _, _ => number.toDouble?.map .float

def scanNumber? (input : List Char) : Option (Json × List Char) := do
  let (number, rest) ← scanDecimal? input
  let value ← number.toJson?
  some (value, rest)

end RowInference.Json
