/-! # Binary operators -/

namespace RowInference

inductive Operator where
  | add
  | sub
  | mul
  | div
  | intDiv
  | pow
  | eq
  | neq
  | lt
  | le
  | gt
  | ge
  | and
  | or
  | append
  | cons
  | pipeRight
  | pipeLeft
  | composeRight
  | composeLeft
deriving DecidableEq, Repr, Inhabited

namespace Operator

def all : List Operator :=
  [add, sub, mul, div, intDiv, pow, eq, neq, lt, le, gt, ge, and, or, append, cons, pipeRight, pipeLeft,
    composeRight, composeLeft]

/-- How the operator is written between its operands. -/
def symbol : Operator → String
  | add => "+"
  | sub => "-"
  | mul => "*"
  | div => "/"
  | intDiv => "//"
  | pow => "^"
  | eq => "=="
  | neq => "/="
  | lt => "<"
  | le => "<="
  | gt => ">"
  | ge => ">="
  | and => "&&"
  | or => "||"
  | append => "++"
  | cons => "::"
  | pipeRight => "|>"
  | pipeLeft => "<|"
  | composeRight => ">>"
  | composeLeft => "<<"

/-- How the operator is written as a function. -/
def asFunction (operator : Operator) : String := "(" ++ operator.symbol ++ ")"

end Operator

end RowInference
