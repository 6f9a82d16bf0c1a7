import RowInference.Typing.State

/-! # Inference of patterns

A pattern gets a type, and the names in it are recorded with theirs. All patterns of one group (the parameters of a
function, a case branch, a destructuring) may bind a name only once between them.
-/

namespace RowInference

namespace Pattern

/-- Give a fresh type to each field of a record pattern and record the field as a name. -/
def inferFields (span : Span) : List String → InferM (List (String × Ty))
  | [] => return []
  | field :: rest => do
    let type ← InferM.fresh
    InferM.bindName field type span
    let rest ← inferFields span rest
    return (field, type) :: rest

mutual

def infer (limit : Nat) : Pattern Span → InferM (Pattern Typed)
  | .unit span => InferM.nested limit span (return .unit (.mono span .unit))
  | .wildcard span => InferM.nested limit span do
    let type ← InferM.fresh
    return .wildcard (.mono span type)
  | .var span name => InferM.nested limit span do
    let type ← InferM.fresh
    InferM.bindName name type span
    return .var (.mono span type) name
  | .integer span value => InferM.nested limit span do
    let type ← InferM.fresh (some .number)
    return .integer (.mono span type) value
  | .hex span value => InferM.nested limit span do
    let type ← InferM.fresh (some .number)
    return .hex (.mono span type) value
  | .float span value => InferM.nested limit span (return .float (.mono span .float) value)
  | .string span value => InferM.nested limit span (return .string (.mono span .string) value)
  | .char span value => InferM.nested limit span (return .char (.mono span .char) value)
  | .tuple span first second => InferM.nested limit span do
    let first ← first.infer limit
    let second ← second.infer limit
    return .tuple (.mono span (.tuple first.type second.type)) first second
  | .triple span first second third => InferM.nested limit span do
    let first ← first.infer limit
    let second ← second.infer limit
    let third ← third.infer limit
    return .triple (.mono span (.triple first.type second.type third.type)) first second third
  | .list span items => InferM.nested limit span do
    let element ← InferM.fresh
    let items ← inferItems limit element items
    return .list (.mono span (.list element)) items
  | .cons span head tail => InferM.nested limit span do
    let head ← head.infer limit
    let tail ← tail.infer limit
    let type := Ty.list head.type
    InferM.equate type tail.type tail.info.span
    return .cons (.mono span type) head tail
  | .record span fields => InferM.nested limit span do
    let base ← InferM.fresh
    let types ← inferFields span fields
    return .record (.mono span (.extension base (Row.ofList types))) fields
  | .aliased span inner name => InferM.nested limit span do
    let inner ← inner.infer limit
    InferM.bindName name inner.type span
    return .aliased (.mono span inner.type) inner name
  | .parenthesized span inner => InferM.nested limit span do
    let inner ← inner.infer limit
    return .parenthesized (.mono span inner.type) inner

/-- Infer patterns that all match elements of one list. -/
def inferItems (limit : Nat) (element : Ty) : List (Pattern Span) → InferM (List (Pattern Typed))
  | [] => return []
  | item :: rest => do
    let item ← item.infer limit
    InferM.equate element item.type item.info.span
    let rest ← inferItems limit element rest
    return item :: rest

end

def inferAll (limit : Nat) : List (Pattern Span) → InferM (List (Pattern Typed))
  | [] => return []
  | pattern :: rest => do
    let pattern ← pattern.infer limit
    let rest ← inferAll limit rest
    return pattern :: rest

end Pattern

end RowInference
