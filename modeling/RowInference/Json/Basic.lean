import RowInference.Number.Double

/-! # JSON values

Objects keep their fields in the order given, repeated names included, because readers of structured data have
to tell a repeated field from a single one. Integers and doubles are different values: `1` is an integer and
`1.0` is not.
-/

namespace RowInference

inductive Json where
  | null
  | bool (value : Bool)
  | int (value : Int)
  | float (value : Double)
  | string (value : String)
  | array (items : List Json)
  | object (fields : List (String × Json))
deriving Repr, Inhabited

namespace Json

def nat (n : Nat) : Json := .int n

/-- A value that may be missing, with `null` for none. -/
def orNull {α : Type} (encode : α → Json) : Option α → Json
  | some value => encode value
  | none => .null

def list {α : Type} (encode : α → Json) (values : List α) : Json := .array (values.map encode)

def tagged (name : String) (value : Json) : Json := .object [(name, value)]

mutual

/-- How deep arrays and objects are nested. -/
def depth : Json → Nat
  | .array items => depthOfItems items + 1
  | .object fields => depthOfFields fields + 1
  | _ => 0

def depthOfItems : List Json → Nat
  | [] => 0
  | item :: rest => max item.depth (depthOfItems rest)

def depthOfFields : List (String × Json) → Nat
  | [] => 0
  | (_, value) :: rest => max value.depth (depthOfFields rest)

end

mutual

/-- Drop all but the last of repeated names in every object. -/
def lastFields : Json → Json
  | .array items => .array (lastFieldsList items)
  | .object fields => .object (lastFieldsObject fields)
  | value => value

def lastFieldsList : List Json → List Json
  | [] => []
  | item :: rest => item.lastFields :: lastFieldsList rest

/-- Drop repeated names inside all fields, and fields whose name comes again. -/
def lastFieldsObject : List (String × Json) → List (String × Json)
  | [] => []
  | (name, value) :: rest =>
    if rest.any fun field => field.1 == name then lastFieldsObject rest
    else (name, value.lastFields) :: lastFieldsObject rest

end

end Json

end RowInference
