import RowInference.Typing.Pattern

/-! # Inference of expressions

The type of an expression follows from the types of its parts, with fresh variables for what is not known yet and
an equation wherever two types have to agree. The types put on the nodes are those known when the node is left; the
substitution completes them afterwards.
-/

namespace RowInference

namespace Expr

open InferM (nested inScope fresh instantiate lookup equate declare declareAll group fail)

/-- Infer the parameters of a function and bind their names in the current scope. -/
def inferParams (limit : Nat) (params : List (Pattern Span)) : InferM (List (Pattern Typed)) := do
  let (params, names) ← group (Pattern.inferAll limit params)
  declareAll names
  return params

/-- The types of fields, by name; of equal names the last one counts. -/
def fieldTypes (fields : List (Field Typed)) : Row :=
  Row.ofList (fields.map fun | .mk name value => (name, value.type))

/-- Add the names that a destructuring binds to those bound so far in a let block. -/
def takeNames (span : Span) (seen : List String) : List (String × Ty) → InferM (List String)
  | [] => return seen
  | (name, _) :: rest =>
    if seen.contains name then fail (.duplicate name) span
    else takeNames span (seen ++ [name]) rest

/-- Infer an argument of a function of the given type; also the type of the result. -/
def inferArg (function : Ty) (infer : InferM (Expr Typed)) : InferM (Expr Typed × Ty) := do
  let arg ← infer
  let result ← fresh
  equate function (.function arg.type result) arg.info.span
  return (arg, result)

/-- Infer the parameters and the body of a function in a scope of its own. -/
def inferFunction (limit : Nat) (params : List (Pattern Span)) (infer : InferM (Expr Typed)) :
    InferM (List (Pattern Typed) × Expr Typed) :=
  inScope do
    let params ← inferParams limit params
    let body ← infer
    return (params, body)

/-- Infer a function of a let block and bind its name in the current scope. A name that is bound already is refused
before anything else, at `place`. -/
def inferLocal (limit : Nat) (seen : List String) (name : String) (place : Span) (params : List (Pattern Span))
    (infer : InferM (Expr Typed)) : InferM (Binding Typed) :=
  if seen.contains name then fail (.duplicate name) place
  else do
    let self ← fresh
    declare name (Scheme.mono self)
    let (params, body) ← inferFunction limit params infer
    equate self (functionType params body) body.info.span
    return .function name params body

/-- Infer a branch of a case expression in a scope of its own. -/
def inferBranch (limit : Nat) (subject result : Ty) (pattern : Pattern Span) (infer : InferM (Expr Typed)) :
    InferM (Branch Typed) :=
  inScope do
    let (pattern, names) ← group (pattern.infer limit)
    equate subject pattern.type pattern.info.span
    declareAll names
    let body ← infer
    equate result body.type body.info.span
    return .mk pattern body

mutual

def infer (limit : Nat) : Expr Span → InferM (Expr Typed)
  | .unit span => nested limit span (return .unit (.mono span .unit))
  | .integer span value => nested limit span do
    let type ← fresh (some .number)
    return .integer (.mono span type) value
  | .hex span value => nested limit span do
    let type ← fresh (some .number)
    return .hex (.mono span type) value
  | .float span value => nested limit span (return .float (.mono span .float) value)
  | .string span value => nested limit span (return .string (.mono span .string) value)
  | .char span value => nested limit span (return .char (.mono span .char) value)
  | .var span name => nested limit span do
    let type ← lookup name span
    return .var (.mono span type) name
  | .tuple span first second => nested limit span do
    let first ← first.infer limit
    let second ← second.infer limit
    return .tuple (.mono span (.tuple first.type second.type)) first second
  | .triple span first second third => nested limit span do
    let first ← first.infer limit
    let second ← second.infer limit
    let third ← third.infer limit
    return .triple (.mono span (.triple first.type second.type third.type)) first second third
  | .list span items => nested limit span do
    let element ← fresh
    let items ← inferItems limit element items
    return .list (.mono span (.list element)) items
  | .lambda span params body => nested limit span do
    let (params, body) ← inferFunction limit params (body.infer limit)
    return .lambda (.mono span (functionType params body)) params body
  | .record span fields => nested limit span do
    let fields ← inferFields limit fields
    return .record (.mono span (.record (fieldTypes fields))) fields
  | .accessor span field => nested limit span do
    let base ← fresh
    let type ← fresh
    let row := Ty.extension base (Row.ofList [(field, type)])
    return .accessor (.mono span (.function row type)) field
  | .access span subject field => nested limit span do
    let subject ← subject.infer limit
    let base ← fresh
    let type ← fresh
    equate (.extension base (Row.ofList [(field, type)])) subject.type subject.info.span
    return .access (.mono span type) subject field
  | .update span name updates => nested limit span do
    let type ← lookup name span
    let updates ← inferFields limit updates
    let base ← fresh
    equate (.extension base (fieldTypes updates)) type span
    return .update (.mono span type) name updates
  | .parenthesized span inner => nested limit span do
    let inner ← inner.infer limit
    return .parenthesized (.mono span inner.type) inner
  | .application span function args => nested limit span do
    let function ← function.infer limit
    let (args, type) ← inferArgs limit function.type args
    return .application (.mono span type) function args
  | .operation span op left right => nested limit span do
    let type ← instantiate (Prelude.operatorScheme op)
    let (left, type) ← inferArg type (left.infer limit)
    let (right, type) ← inferArg type (right.infer limit)
    return .operation (.mono span type) op left right
  | .operator span op => nested limit span do
    let type ← instantiate (Prelude.operatorScheme op)
    return .operator (.mono span type) op
  | .negate span inner => nested limit span do
    let inner ← inner.infer limit
    let type ← fresh (some .number)
    equate type inner.type inner.info.span
    return .negate (.mono span type) inner
  | .conditional span condition thenBranch elseBranch => nested limit span do
    let condition ← condition.infer limit
    equate .bool condition.type condition.info.span
    let thenBranch ← thenBranch.infer limit
    let elseBranch ← elseBranch.infer limit
    equate thenBranch.type elseBranch.type elseBranch.info.span
    return .conditional (.mono span thenBranch.type) condition thenBranch elseBranch
  | .letIn span bindings body => nested limit span do
    let (bindings, body) ← inScope do
      let bindings ← inferBindings limit [] bindings
      let body ← body.infer limit
      return (bindings, body)
    return .letIn (.mono span body.type) bindings body
  | .caseOf span subject branches => nested limit span do
    let subject ← subject.infer limit
    let result ← fresh
    let branches ← inferBranches limit subject.type result branches
    return .caseOf (.mono span result) subject branches
  | .glsl span _ => nested limit span (fail (.unsupported "glsl") span)

/-- Infer the arguments of a function from left to right; also the type of the result. -/
def inferArgs (limit : Nat) (function : Ty) : List (Expr Span) → InferM (List (Expr Typed) × Ty)
  | [] => return ([], function)
  | arg :: rest => do
    let (arg, result) ← inferArg function (arg.infer limit)
    let (rest, result) ← inferArgs limit result rest
    return (arg :: rest, result)

def inferItems (limit : Nat) (element : Ty) : List (Expr Span) → InferM (List (Expr Typed))
  | [] => return []
  | item :: rest => do
    let item ← item.infer limit
    equate element item.type item.info.span
    let rest ← inferItems limit element rest
    return item :: rest

def inferFields (limit : Nat) : List (Field Span) → InferM (List (Field Typed))
  | [] => return []
  | .mk name value :: rest => do
    let value ← value.infer limit
    let rest ← inferFields limit rest
    return .mk name value :: rest

def inferBranches (limit : Nat) (subject result : Ty) : List (Branch Span) → InferM (List (Branch Typed))
  | [] => return []
  | .mk pattern body :: rest => do
    let branch ← inferBranch limit subject result pattern (body.infer limit)
    let rest ← inferBranches limit subject result rest
    return branch :: rest

/-- Infer the bindings of a let block in order. A function can use itself and what is bound before it; a name can
be bound only once, and `seen` holds those bound so far. -/
def inferBindings (limit : Nat) (seen : List String) : List (Binding Span) → InferM (List (Binding Typed))
  | [] => return []
  | .function name params body :: rest => do
    let binding ← inferLocal limit seen name body.info params (body.infer limit)
    let rest ← inferBindings limit (seen ++ [name]) rest
    return binding :: rest
  | .destructuring pattern body :: rest => do
    let body ← body.infer limit
    let (pattern, names) ← group (pattern.infer limit)
    equate pattern.type body.type body.info.span
    let seen ← takeNames pattern.info.span seen names
    declareAll names
    let rest ← inferBindings limit seen rest
    return .destructuring pattern body :: rest

end

end Expr

end RowInference
