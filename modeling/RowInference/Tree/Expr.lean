import RowInference.Tree.Operator
import RowInference.Tree.Pattern

/-! # Expressions

Expressions are nested through lists of expressions, record fields, case branches and let bindings. Each of
these lists has a function of its own next to the function on expressions, wherever a tree is traversed.
-/

namespace RowInference

mutual

/-- An expression whose nodes carry an `ι`. -/
inductive Expr (ι : Type) where
  | unit (info : ι)
  | integer (info : ι) (value : Int64)
  | hex (info : ι) (value : Int64)
  | float (info : ι) (value : Double)
  | string (info : ι) (value : String)
  | char (info : ι) (value : Char)
  | var (info : ι) (name : String)
  | tuple (info : ι) (first second : Expr ι)
  | triple (info : ι) (first second third : Expr ι)
  | list (info : ι) (items : List (Expr ι))
  | lambda (info : ι) (params : List (Pattern ι)) (body : Expr ι)
  | record (info : ι) (fields : List (Field ι))
  /-- A field name used as a function. -/
  | accessor (info : ι) (field : String)
  | access (info : ι) (subject : Expr ι) (field : String)
  /-- A record, given by name, with new values for some fields. -/
  | update (info : ι) (name : String) (updates : List (Field ι))
  | parenthesized (info : ι) (inner : Expr ι)
  | application (info : ι) (function : Expr ι) (args : List (Expr ι))
  | operation (info : ι) (op : Operator) (left right : Expr ι)
  | operator (info : ι) (op : Operator)
  | negate (info : ι) (inner : Expr ι)
  | conditional (info : ι) (condition thenBranch elseBranch : Expr ι)
  | letIn (info : ι) (bindings : List (Binding ι)) (body : Expr ι)
  | caseOf (info : ι) (subject : Expr ι) (branches : List (Branch ι))
  | glsl (info : ι) (source : String)

inductive Field (ι : Type) where
  | mk (name : String) (value : Expr ι)

inductive Branch (ι : Type) where
  | mk (pattern : Pattern ι) (body : Expr ι)

inductive Binding (ι : Type) where
  /-- A function, or a value if there are no parameters. -/
  | function (name : String) (params : List (Pattern ι)) (body : Expr ι)
  /-- A pattern that takes a value apart. -/
  | destructuring (pattern : Pattern ι) (body : Expr ι)

end

namespace Expr

variable {ι κ : Type} {m : Type → Type} [Monad m]

/-- The information on the outermost node. -/
def info : Expr ι → ι
  | unit info | integer info _ | hex info _ | float info _ | string info _ | char info _ | var info _
  | tuple info _ _ | triple info _ _ _ | list info _ | lambda info _ _ | record info _ | accessor info _
  | access info _ _ | update info _ _ | parenthesized info _ | application info _ _
  | operation info _ _ _ | operator info _ | negate info _ | conditional info _ _ _ | letIn info _ _
  | caseOf info _ _ | glsl info _ => info

/-- The name of the form of the outermost node. -/
def form : Expr ι → String
  | unit _ => "unit"
  | integer .. => "integer"
  | hex .. => "hex"
  | float .. => "float"
  | string .. => "string"
  | char .. => "char"
  | var .. => "variable"
  | tuple .. => "tuple"
  | triple .. => "tuple3"
  | list .. => "list"
  | lambda .. => "lambda"
  | record .. => "record"
  | accessor .. => "record access function"
  | access .. => "record access"
  | update .. => "record update"
  | parenthesized .. => "parenthesized"
  | application .. => "application"
  | operation .. => "operator"
  | operator .. => "operator function"
  | negate .. => "negate"
  | conditional .. => "if"
  | letIn .. => "let"
  | caseOf .. => "case"
  | glsl .. => "glsl"

mutual

/-- Replace the information on all nodes: children in the order in which they are written, parameters before
bodies, then the node itself. -/
def mapInfoM (visit : ι → m κ) : Expr ι → m (Expr κ)
  | .unit info => return .unit (← visit info)
  | .integer info value => return .integer (← visit info) value
  | .hex info value => return .hex (← visit info) value
  | .float info value => return .float (← visit info) value
  | .string info value => return .string (← visit info) value
  | .char info value => return .char (← visit info) value
  | .var info name => return .var (← visit info) name
  | .tuple info first second => do
    let first ← first.mapInfoM visit
    let second ← second.mapInfoM visit
    return .tuple (← visit info) first second
  | .triple info first second third => do
    let first ← first.mapInfoM visit
    let second ← second.mapInfoM visit
    let third ← third.mapInfoM visit
    return .triple (← visit info) first second third
  | .list info items => do
    let items ← mapItemsM visit items
    return .list (← visit info) items
  | .lambda info params body => do
    let params ← Pattern.mapInfosM visit params
    let body ← body.mapInfoM visit
    return .lambda (← visit info) params body
  | .record info fields => do
    let fields ← mapFieldsM visit fields
    return .record (← visit info) fields
  | .accessor info field => return .accessor (← visit info) field
  | .access info subject field => do
    let subject ← subject.mapInfoM visit
    return .access (← visit info) subject field
  | .update info name updates => do
    let updates ← mapFieldsM visit updates
    return .update (← visit info) name updates
  | .parenthesized info inner => do
    let inner ← inner.mapInfoM visit
    return .parenthesized (← visit info) inner
  | .application info function args => do
    let function ← function.mapInfoM visit
    let args ← mapItemsM visit args
    return .application (← visit info) function args
  | .operation info op left right => do
    let left ← left.mapInfoM visit
    let right ← right.mapInfoM visit
    return .operation (← visit info) op left right
  | .operator info op => return .operator (← visit info) op
  | .negate info inner => do
    let inner ← inner.mapInfoM visit
    return .negate (← visit info) inner
  | .conditional info condition thenBranch elseBranch => do
    let condition ← condition.mapInfoM visit
    let thenBranch ← thenBranch.mapInfoM visit
    let elseBranch ← elseBranch.mapInfoM visit
    return .conditional (← visit info) condition thenBranch elseBranch
  | .letIn info bindings body => do
    let bindings ← mapBindingsM visit bindings
    let body ← body.mapInfoM visit
    return .letIn (← visit info) bindings body
  | .caseOf info subject branches => do
    let subject ← subject.mapInfoM visit
    let branches ← mapBranchesM visit branches
    return .caseOf (← visit info) subject branches
  | .glsl info source => return .glsl (← visit info) source

def mapItemsM (visit : ι → m κ) : List (Expr ι) → m (List (Expr κ))
  | [] => return []
  | item :: rest => do
    let item ← item.mapInfoM visit
    let rest ← mapItemsM visit rest
    return item :: rest

def mapFieldsM (visit : ι → m κ) : List (Field ι) → m (List (Field κ))
  | [] => return []
  | .mk name value :: rest => do
    let value ← value.mapInfoM visit
    let rest ← mapFieldsM visit rest
    return .mk name value :: rest

/-- Replace the information in case branches, patterns before bodies. -/
def mapBranchesM (visit : ι → m κ) : List (Branch ι) → m (List (Branch κ))
  | [] => return []
  | .mk pattern body :: rest => do
    let pattern ← pattern.mapInfoM visit
    let body ← body.mapInfoM visit
    let rest ← mapBranchesM visit rest
    return .mk pattern body :: rest

/-- Replace the information in let bindings, parameters and patterns before bodies. -/
def mapBindingsM (visit : ι → m κ) : List (Binding ι) → m (List (Binding κ))
  | [] => return []
  | .function name params body :: rest => do
    let params ← Pattern.mapInfosM visit params
    let body ← body.mapInfoM visit
    let rest ← mapBindingsM visit rest
    return .function name params body :: rest
  | .destructuring pattern body :: rest => do
    let pattern ← pattern.mapInfoM visit
    let body ← body.mapInfoM visit
    let rest ← mapBindingsM visit rest
    return .destructuring pattern body :: rest

end

def mapInfo (change : ι → κ) (expr : Expr ι) : Expr κ :=
  Id.run (expr.mapInfoM fun info => pure (change info))

mutual

/-- The information on all nodes, children before their parent. -/
def infos : Expr ι → List ι
  | .tuple info first second => first.infos ++ (second.infos ++ [info])
  | .triple info first second third => first.infos ++ (second.infos ++ (third.infos ++ [info]))
  | .list info items => itemInfos items ++ [info]
  | .lambda info params body => Pattern.infosOf params ++ (body.infos ++ [info])
  | .record info fields => fieldInfos fields ++ [info]
  | .access info subject _ => subject.infos ++ [info]
  | .update info _ updates => fieldInfos updates ++ [info]
  | .parenthesized info inner => inner.infos ++ [info]
  | .application info function args => function.infos ++ (itemInfos args ++ [info])
  | .operation info _ left right => left.infos ++ (right.infos ++ [info])
  | .negate info inner => inner.infos ++ [info]
  | .conditional info condition thenBranch elseBranch =>
    condition.infos ++ (thenBranch.infos ++ (elseBranch.infos ++ [info]))
  | .letIn info bindings body => bindingInfos bindings ++ (body.infos ++ [info])
  | .caseOf info subject branches => subject.infos ++ (branchInfos branches ++ [info])
  | .unit info | .integer info _ | .hex info _ | .float info _ | .string info _ | .char info _
  | .var info _ | .accessor info _ | .operator info _ | .glsl info _ => [info]

def itemInfos : List (Expr ι) → List ι
  | [] => []
  | item :: rest => item.infos ++ itemInfos rest

def fieldInfos : List (Field ι) → List ι
  | [] => []
  | .mk _ value :: rest => value.infos ++ fieldInfos rest

def branchInfos : List (Branch ι) → List ι
  | [] => []
  | .mk pattern body :: rest => pattern.infos ++ (body.infos ++ branchInfos rest)

def bindingInfos : List (Binding ι) → List ι
  | [] => []
  | .function _ params body :: rest => Pattern.infosOf params ++ (body.infos ++ bindingInfos rest)
  | .destructuring pattern body :: rest => pattern.infos ++ (body.infos ++ bindingInfos rest)

end

end Expr

end RowInference
