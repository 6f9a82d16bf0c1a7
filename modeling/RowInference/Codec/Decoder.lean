import RowInference.Json.Basic

/-! # Reading structured data

Records are written as objects with named fields, and may also be given as arrays of their fields in order.
Alternatives are written as an object with one field, whose name is the alternative; one without content is written
as its name alone. Unknown fields of a record are ignored, a field given twice is refused.
-/

namespace RowInference

/-- Reads a value of type `α`, if there is one. -/
abbrev Decoder (α : Type) := Json → Option α

namespace Decoder

variable {α β γ : Type}

def string : Decoder String
  | .string value => some value
  | _ => none

def bool : Decoder Bool
  | .bool value => some value
  | _ => none

/-- A natural number below a bound. -/
def below (bound : Nat) : Decoder Nat
  | .int value => if 0 ≤ value ∧ value < bound then some value.toNat else none
  | _ => none

def word : Decoder UInt64 := fun json => (below UInt64.size json).map UInt64.ofNat

def int64 : Decoder Int64
  | .int value => if -0x8000000000000000 ≤ value ∧ value < 0x8000000000000000 then some (Int64.ofInt value) else none
  | _ => none

/-- A double; an integer is rounded to one. -/
def double : Decoder Double
  | .int value => some (Double.ofInt value)
  | .float value => some value
  | _ => none

def char : Decoder Char
  | .string value =>
    match value.toList with
    | [c] => some c
    | _ => none
  | _ => none

def list (item : Decoder α) : Decoder (List α)
  | .array items => items.mapM item
  | _ => none

def pair (first : Decoder α) (second : Decoder β) : Decoder (α × β)
  | .array [a, b] => do return (← first a, ← second b)
  | _ => none

def triple (first : Decoder α) (second : Decoder β) (third : Decoder γ) : Decoder (α × β × γ)
  | .array [a, b, c] => do return (← first a, ← second b, ← third c)
  | _ => none

/-- A value, or `null` for none. -/
def nullable (value : Decoder α) : Decoder (Option α)
  | .null => some none
  | json => (value json).map some

/-- An object as a list of names with values; a repeated name is kept. -/
def entries (value : Decoder α) : Decoder (List (String × α))
  | .object fields => fields.mapM fun (name, json) => (value json).map fun value => (name, value)
  | _ => none

/-- The value of a field, `none` inside if it is missing. -/
def field (fields : List (String × Json)) (name : String) : Option (Option Json) :=
  match fields.filter fun entry => entry.1 == name with
  | [] => some none
  | [(_, value)] => some (some value)
  | _ => none

/-- The fields of a record, by name or by position. -/
def fields (names : List String) : Decoder (List (Option Json))
  | .object fields => names.mapM (field fields)
  | .array items =>
    if items.length ≤ names.length then
      some (items.map some ++ List.replicate (names.length - items.length) none)
    else none
  | _ => none

def required (value : Decoder α) : Option Json → Option α
  | some json => value json
  | none => none

def orDefault (default : α) (value : Decoder α) : Option Json → Option α
  | some json => value json
  | none => some default

def tag : Decoder (String × Option Json)
  | .string name => some (name, none)
  | .object [(name, content)] => some (name, some content)
  | _ => none

def bare (value : α) : Option Json → Option α
  | none | some .null => some value
  | _ => none

end Decoder

end RowInference
