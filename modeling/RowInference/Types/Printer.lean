import RowInference.Types.Letters
import RowInference.Types.Scheme

/-! # Printing types

Variables are printed by position, not by identity: unconstrained ones as `a`, `b`, …, constrained ones
as `number`, `number1`, … or `appendable`, `appendable1`, …, numbered as they are met. In an extension
the fields are met before the base, so that `{ b | x : a }` names the field first. One table of names
can serve several types, which then share their variables' names.

Arrows associate to the right, and parentheses stand only where the text would read otherwise.
-/

namespace RowInference

mutual

/-- Every occurrence of a variable in the order in which names are given. -/
def Ty.namingOrder : Ty → List TypeVar
  | .var v => [v]
  | .tuple first second => first.namingOrder ++ second.namingOrder
  | .triple first second third => first.namingOrder ++ (second.namingOrder ++ third.namingOrder)
  | .list element => element.namingOrder
  | .function source target => source.namingOrder ++ target.namingOrder
  | .record fields => fields.namingOrder
  | .extension base fields => fields.namingOrder ++ base.namingOrder
  | _ => []

def Row.namingOrder : Row → List TypeVar
  | .empty => []
  | .field _ type rest => type.namingOrder ++ rest.namingOrder

end

/-- The names given so far, and how many variables of each kind have one. -/
structure Names where
  /-- The name of each variable met. -/
  given : Std.ExtTreeMap VarId String := {}
  plain : Nat := 0
  numbers : Nat := 0
  appendables : Nat := 0

namespace Names

/-- The name of the constrained variable after `count` others of its class. -/
def constrained (constraint : Constraint) (count : Nat) : String :=
  if count = 0 then constraint.name else constraint.name ++ toString count

/-- Name a variable that has no name yet. -/
def assign (names : Names) (var : TypeVar) : Names :=
  if names.given.contains var.id then names
  else
    match var.constraint with
    | none =>
      { names with given := names.given.insert var.id (letterName names.plain),
                   plain := names.plain + 1 }
    | some .number =>
      { names with given := names.given.insert var.id (constrained .number names.numbers),
                   numbers := names.numbers + 1 }
    | some .appendable =>
      { names with given := names.given.insert var.id (constrained .appendable names.appendables),
                   appendables := names.appendables + 1 }

/-- Name all variables of a type. -/
def assignAll (names : Names) (type : Ty) : Names := type.namingOrder.foldl assign names

/-- The name of a variable; one that was never named shows its identity. -/
def name (names : Names) (id : VarId) : String := names.given[id]?.getD id.text

end Names

/-- Where a type stands in the text around it. -/
inductive PrintContext where
  /-- On its own, or right of an arrow. -/
  | top
  /-- Left of an arrow. -/
  | arrow
  /-- Argument of a type constructor. -/
  | argument
deriving DecidableEq, Repr

def parenthesize (needed : Bool) (text : String) : String :=
  if needed then "(" ++ text ++ ")" else text

mutual

/-- The text of a type under given names, in a given place. -/
def Ty.render (names : Names) (context : PrintContext) : Ty → String
  | .unit => "()"
  | .bool => "Bool"
  | .char => "Char"
  | .string => "String"
  | .int => "Int"
  | .float => "Float"
  | .var v => names.name v.id
  | .tuple first second =>
    "( " ++ first.render names .top ++ ", " ++ second.render names .top ++ " )"
  | .triple first second third =>
    "( " ++ first.render names .top ++ ", " ++ second.render names .top ++ ", "
      ++ third.render names .top ++ " )"
  | .list element =>
    parenthesize (context = .argument) ("List " ++ element.render names .argument)
  | .function source target =>
    parenthesize (context ≠ .top)
      (source.render names .arrow ++ " -> " ++ target.render names .top)
  | .record .empty => "\x7b\x7d"
  | .record (.field name type rest) =>
    "\x7b " ++ name ++ " : " ++ type.render names .top ++ rest.renderMore names ++ " \x7d"
  | .extension base .empty => base.render names context
  | .extension base (.field name type rest) =>
    "\x7b " ++ base.render names .top ++ " | " ++ name ++ " : " ++ type.render names .top
      ++ rest.renderMore names ++ " \x7d"

def Row.renderMore (names : Names) : Row → String
  | .empty => ""
  | .field name type rest =>
    ", " ++ name ++ " : " ++ type.render names .top ++ rest.renderMore names

end

/-- Print a type with the names given so far, and keep the names it adds. -/
def Names.print (names : Names) (type : Ty) : String × Names :=
  let names := names.assignAll type
  (type.render names .top, names)

/-- Print types in order with one table of names. -/
def Names.printAll (names : Names) : List Ty → List String
  | [] => []
  | type :: rest =>
    let (text, names) := names.print type
    text :: names.printAll rest

def Ty.text (type : Ty) : String := (Names.print {} type).1

/-- The text of a scheme is that of its body. -/
def Scheme.text (scheme : Scheme) : String := scheme.body.text

end RowInference
