import RowInference.Tree.Operator
import RowInference.Typing.Environment

/-! # The prelude

The names and operators that every module can use, with their schemes.
-/

namespace RowInference.Prelude

/-- A scheme that quantifies all variables of a function type. -/
def polymorphic (params : List Ty) (result : Ty) : Scheme := Scheme.closed (Ty.curried params result)

/-- A variable that stands for any type. -/
def anyType (name : String) : Ty := .var (TypeVar.named name)

def number : Ty := .var ⟨.named "number", some .number⟩

def appendable : Ty := .var ⟨.named "appendable", some .appendable⟩

def operatorScheme : Operator → Scheme
  | .add | .sub | .mul | .pow => polymorphic [number, number] number
  | .div => polymorphic [.float, .float] .float
  | .intDiv => polymorphic [.int, .int] .int
  | .eq | .neq | .lt | .le | .gt | .ge => polymorphic [anyType "a", anyType "a"] .bool
  | .and | .or => polymorphic [.bool, .bool] .bool
  | .append => polymorphic [appendable, appendable] appendable
  | .cons => polymorphic [anyType "a", .list (anyType "a")] (.list (anyType "a"))
  | .pipeRight => polymorphic [anyType "a", .function (anyType "a") (anyType "b")] (anyType "b")
  | .pipeLeft => polymorphic [.function (anyType "a") (anyType "b"), anyType "a"] (anyType "b")
  | .composeRight =>
    polymorphic
      [.function (anyType "a") (anyType "b"), .function (anyType "b") (anyType "c"), anyType "a"]
      (anyType "c")
  | .composeLeft =>
    polymorphic
      [.function (anyType "b") (anyType "c"), .function (anyType "a") (anyType "b"), anyType "a"]
      (anyType "c")

/-- The named values, in the order in which they are listed. -/
def values : List (String × Scheme) :=
  [("True", Scheme.mono .bool),
    ("False", Scheme.mono .bool),
    ("not", polymorphic [.bool] .bool),
    ("identity", polymorphic [anyType "a"] (anyType "a")),
    ("always", polymorphic [anyType "a", anyType "b"] (anyType "a")),
    ("toFloat", polymorphic [.int] .float),
    ("round", polymorphic [.float] .int),
    ("floor", polymorphic [.float] .int),
    ("ceiling", polymorphic [.float] .int),
    ("truncate", polymorphic [.float] .int),
    ("negate", polymorphic [number] number)]

/-- The environment in which every module starts. -/
def environment : Environment :=
  values.foldl (fun env entry => env.add entry.1 entry.2) {}

end RowInference.Prelude
