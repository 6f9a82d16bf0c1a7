import RowInference.Substitution
import RowInference.Text.Quoted

/-! # Outlines of types

The outline of a type spells out every constructor, identity and constraint, so that nothing about the type
stays hidden. Substitutions are shown with the outlines of the types they bind.
-/

namespace RowInference

def VarId.outline : VarId → String
  | generated index => "Generated(" ++ toString index ++ ")"
  | named name => "Named(" ++ Text.quote name ++ ")"

def Constraint.outline : Option Constraint → String
  | none => "None"
  | some number => "Some(Number)"
  | some appendable => "Some(Appendable)"

def TypeVar.outline (var : TypeVar) : String :=
  "TypeVar \x7b id: " ++ var.id.outline ++ ", constraint: " ++ Constraint.outline var.constraint
    ++ " \x7d"

mutual

/-- The outline of a type. -/
def Ty.outline : Ty → String
  | .unit => "Unit"
  | .bool => "Bool"
  | .char => "Char"
  | .string => "String"
  | .int => "Int"
  | .float => "Float"
  | .var v => "Var(" ++ v.outline ++ ")"
  | .tuple first second => "Tuple(" ++ first.outline ++ ", " ++ second.outline ++ ")"
  | .triple first second third =>
    "Tuple3(" ++ first.outline ++ ", " ++ second.outline ++ ", " ++ third.outline ++ ")"
  | .list element => "List(" ++ element.outline ++ ")"
  | .function source target =>
    "Function \x7b from: " ++ source.outline ++ ", to: " ++ target.outline ++ " \x7d"
  | .record fields => "Record(\x7b" ++ String.intercalate ", " fields.outlines ++ "\x7d)"
  | .extension base fields =>
    "ExtensibleRecord \x7b base: " ++ base.outline ++ ", fields: \x7b"
      ++ String.intercalate ", " fields.outlines ++ "\x7d \x7d"

def Row.outlines : Row → List String
  | .empty => []
  | .field name type rest => (Text.quote name ++ ": " ++ type.outline) :: rest.outlines

end

/-- A substitution as the list of its bindings. -/
def Substitution.text (subst : Substitution) : String :=
  "[" ++ String.intercalate ", "
    (subst.toList.map fun binding => binding.1.text ++ " := " ++ binding.2.outline) ++ "]"

end RowInference
