import RowInference.Codec.Info

/-! # Patterns and expressions as JSON

A node is a record of its kind and the information on it. The kind is an alternative with the node's parts.
-/

namespace RowInference

open Decoder (fields required orDefault tag bare)

variable {ι : Type}

/-- A node with its kind and the information on it. -/
def nodeJson (kind info : Json) : Json := .object [("kind", kind), ("meta", info)]

def namedJson (name : String) (value : Json) : Json := .array [.string name, value]

/-- Read a node, given how to read its kind. -/
def nodeOf {α : Type} (format : InfoFormat ι) (kind : String × Option Json → Option (ι → α)) : Decoder α :=
  fun json => do
    match ← fields ["kind", "meta"] json with
    | [some node, info] =>
      let build ← tag node >>= kind
      return build (← orDefault format.missing format.read info)
    | _ => none

namespace Operator

def jsonName : Operator → String
  | .add => "Add"
  | .sub => "Sub"
  | .mul => "Mul"
  | .div => "Div"
  | .intDiv => "IntDiv"
  | .pow => "Pow"
  | .eq => "Eq"
  | .neq => "Neq"
  | .lt => "Lt"
  | .le => "Le"
  | .gt => "Gt"
  | .ge => "Ge"
  | .and => "And"
  | .or => "Or"
  | .append => "Append"
  | .cons => "Cons"
  | .pipeRight => "PipeRight"
  | .pipeLeft => "PipeLeft"
  | .composeRight => "ComposeRight"
  | .composeLeft => "ComposeLeft"

def toJson (op : Operator) : Json := .string op.jsonName

def ofJson? : Decoder Operator := fun json => do
  let (name, content) ← tag json
  let op ← all.find? fun op => op.jsonName == name
  bare op content

end Operator

namespace Pattern

mutual

/-- Write a pattern, given how to write the information on its nodes. -/
def toJson (write : ι → Json) : Pattern ι → Json
  | .unit info => nodeJson (.string "Unit") (write info)
  | .wildcard info => nodeJson (.string "Wildcard") (write info)
  | .var info name => nodeJson (.tagged "Var" (.string name)) (write info)
  | .integer info value => nodeJson (.tagged "Integer" (.int value.toInt)) (write info)
  | .hex info value => nodeJson (.tagged "Hex" (.int value.toInt)) (write info)
  | .float info value => nodeJson (.tagged "Float" (.float value)) (write info)
  | .string info value => nodeJson (.tagged "String" (.string value)) (write info)
  | .char info value => nodeJson (.tagged "Char" (.string value.toString)) (write info)
  | .tuple info first second =>
    nodeJson (.tagged "Tuple" (.array [first.toJson write, second.toJson write])) (write info)
  | .triple info first second third =>
    nodeJson (.tagged "Tuple3" (.array [first.toJson write, second.toJson write, third.toJson write]))
      (write info)
  | .list info items => nodeJson (.tagged "List" (.array (itemsJson write items))) (write info)
  | .cons info head tail =>
    nodeJson (.tagged "Cons" (.object [("head", head.toJson write), ("tail", tail.toJson write)]))
      (write info)
  | .record info names => nodeJson (.tagged "Record" (.list .string names)) (write info)
  | .aliased info inner name =>
    nodeJson (.tagged "Alias" (.object [("pattern", inner.toJson write), ("name", .string name)]))
      (write info)
  | .parenthesized info inner => nodeJson (.tagged "Parenthesized" (inner.toJson write)) (write info)

def itemsJson (write : ι → Json) : List (Pattern ι) → List Json
  | [] => []
  | pattern :: rest => pattern.toJson write :: itemsJson write rest

end

/-- Read the kind of a pattern, given how to read the patterns inside it. -/
def kindOf (inner : Decoder (Pattern ι)) : String × Option Json → Option (ι → Pattern ι)
  | ("Unit", content) => bare .unit content
  | ("Wildcard", content) => bare .wildcard content
  | ("Var", some content) => (Decoder.string content).map fun name info => .var info name
  | ("Integer", some content) => (Decoder.int64 content).map fun value info => .integer info value
  | ("Hex", some content) => (Decoder.int64 content).map fun value info => .hex info value
  | ("Float", some content) => (Decoder.double content).map fun value info => .float info value
  | ("String", some content) => (Decoder.string content).map fun value info => .string info value
  | ("Char", some content) => (Decoder.char content).map fun value info => .char info value
  | ("Tuple", some content) =>
    (Decoder.pair inner inner content).map fun (first, second) info => .tuple info first second
  | ("Tuple3", some content) =>
    (Decoder.triple inner inner inner content).map fun (first, second, third) info =>
      .triple info first second third
  | ("List", some content) => (Decoder.list inner content).map fun items info => .list info items
  | ("Cons", some content) => do
    match ← fields ["head", "tail"] content with
    | [head, tail] =>
      let head ← required inner head
      let tail ← required inner tail
      return fun info => .cons info head tail
    | _ => none
  | ("Record", some content) =>
    (Decoder.list Decoder.string content).map fun names info => .record info names
  | ("Alias", some content) => do
    match ← fields ["pattern", "name"] content with
    | [pattern, name] =>
      let pattern ← required inner pattern
      let name ← required Decoder.string name
      return fun info => .aliased info pattern name
    | _ => none
  | ("Parenthesized", some content) => (inner content).map fun inner info => .parenthesized info inner
  | _ => none

/-- Read a pattern in which patterns are nested at most `depth` deep. -/
def ofJsonWithin (format : InfoFormat ι) : Nat → Decoder (Pattern ι)
  | 0, _ => none
  | depth + 1, json => nodeOf format (kindOf (ofJsonWithin format depth)) json

def ofJson? (format : InfoFormat ι) : Decoder (Pattern ι) :=
  fun json => ofJsonWithin format (json.depth + 1) json

end Pattern

namespace Expr

mutual

/-- Write an expression, given how to write the information on its nodes. -/
def toJson (write : ι → Json) : Expr ι → Json
  | .unit info => nodeJson (.string "Unit") (write info)
  | .integer info value => nodeJson (.tagged "Integer" (.int value.toInt)) (write info)
  | .hex info value => nodeJson (.tagged "Hex" (.int value.toInt)) (write info)
  | .float info value => nodeJson (.tagged "Float" (.float value)) (write info)
  | .string info value => nodeJson (.tagged "String" (.string value)) (write info)
  | .char info value => nodeJson (.tagged "Char" (.string value.toString)) (write info)
  | .var info name => nodeJson (.tagged "Var" (.string name)) (write info)
  | .tuple info first second =>
    nodeJson (.tagged "Tuple" (.array [first.toJson write, second.toJson write])) (write info)
  | .triple info first second third =>
    nodeJson (.tagged "Tuple3" (.array [first.toJson write, second.toJson write, third.toJson write]))
      (write info)
  | .list info items => nodeJson (.tagged "List" (.array (itemsJson write items))) (write info)
  | .lambda info params body =>
    nodeJson (.tagged "Lambda" (.object [("args", .array (Pattern.itemsJson write params)),
      ("body", body.toJson write)])) (write info)
  | .record info entries => nodeJson (.tagged "Record" (.array (fieldsJson write entries))) (write info)
  | .accessor info name => nodeJson (.tagged "RecordAccessFunction" (.string name)) (write info)
  | .access info subject name =>
    nodeJson (.tagged "RecordAccess" (.object [("record", subject.toJson write), ("field", .string name)]))
      (write info)
  | .update info name updates =>
    nodeJson (.tagged "RecordUpdate" (.object [("record", .string name),
      ("updates", .array (fieldsJson write updates))])) (write info)
  | .parenthesized info inner => nodeJson (.tagged "Parenthesized" (inner.toJson write)) (write info)
  | .application info function args =>
    nodeJson (.tagged "Application" (.object [("function", function.toJson write),
      ("args", .array (itemsJson write args))])) (write info)
  | .operation info op left right =>
    nodeJson (.tagged "Operator" (.object [("op", op.toJson), ("left", left.toJson write),
      ("right", right.toJson write)])) (write info)
  | .operator info op => nodeJson (.tagged "OperatorFunction" op.toJson) (write info)
  | .negate info inner => nodeJson (.tagged "Negate" (inner.toJson write)) (write info)
  | .conditional info condition thenBranch elseBranch =>
    nodeJson (.tagged "If" (.object [("condition", condition.toJson write),
      ("then_branch", thenBranch.toJson write), ("else_branch", elseBranch.toJson write)])) (write info)
  | .letIn info bindings body =>
    nodeJson (.tagged "Let" (.object [("bindings", .array (bindingsJson write bindings)),
      ("body", body.toJson write)])) (write info)
  | .caseOf info subject branches =>
    nodeJson (.tagged "Case" (.object [("subject", subject.toJson write),
      ("branches", .array (branchesJson write branches))])) (write info)
  | .glsl info source => nodeJson (.tagged "Glsl" (.string source)) (write info)

def itemsJson (write : ι → Json) : List (Expr ι) → List Json
  | [] => []
  | item :: rest => item.toJson write :: itemsJson write rest

def fieldsJson (write : ι → Json) : List (Field ι) → List Json
  | [] => []
  | .mk name value :: rest => namedJson name (value.toJson write) :: fieldsJson write rest

def branchesJson (write : ι → Json) : List (Branch ι) → List Json
  | [] => []
  | .mk pattern body :: rest =>
    .array [pattern.toJson write, body.toJson write] :: branchesJson write rest

def bindingsJson (write : ι → Json) : List (Binding ι) → List Json
  | [] => []
  | .function name params body :: rest =>
    .tagged "Function" (.object [("name", .string name),
      ("args", .array (Pattern.itemsJson write params)), ("body", body.toJson write)])
      :: bindingsJson write rest
  | .destructuring pattern body :: rest =>
    .tagged "Destructuring" (.object [("pattern", pattern.toJson write), ("body", body.toJson write)])
      :: bindingsJson write rest

end

def fieldsOf (inner : Decoder (Expr ι)) : Decoder (List (Field ι)) :=
  Decoder.list fun json => (Decoder.pair Decoder.string inner json).map fun (name, value) => .mk name value

def branchesOf (pattern : Decoder (Pattern ι)) (inner : Decoder (Expr ι)) : Decoder (List (Branch ι)) :=
  Decoder.list fun json => (Decoder.pair pattern inner json).map fun (pattern, body) => .mk pattern body

def bindingOf (pattern : Decoder (Pattern ι)) (inner : Decoder (Expr ι)) : Decoder (Binding ι) := fun json => do
  match ← tag json with
  | ("Function", some content) =>
    match ← fields ["name", "args", "body"] content with
    | [name, params, body] =>
      return .function (← required Decoder.string name) (← required (Decoder.list pattern) params)
        (← required inner body)
    | _ => none
  | ("Destructuring", some content) =>
    match ← fields ["pattern", "body"] content with
    | [subject, body] => return .destructuring (← required pattern subject) (← required inner body)
    | _ => none
  | _ => none

/-- Read the kind of an expression, given how to read the patterns and expressions inside it. -/
def kindOf (pattern : Decoder (Pattern ι)) (inner : Decoder (Expr ι)) :
    String × Option Json → Option (ι → Expr ι)
  | ("Unit", content) => bare .unit content
  | ("Integer", some content) => (Decoder.int64 content).map fun value info => .integer info value
  | ("Hex", some content) => (Decoder.int64 content).map fun value info => .hex info value
  | ("Float", some content) => (Decoder.double content).map fun value info => .float info value
  | ("String", some content) => (Decoder.string content).map fun value info => .string info value
  | ("Char", some content) => (Decoder.char content).map fun value info => .char info value
  | ("Var", some content) => (Decoder.string content).map fun name info => .var info name
  | ("Tuple", some content) =>
    (Decoder.pair inner inner content).map fun (first, second) info => .tuple info first second
  | ("Tuple3", some content) =>
    (Decoder.triple inner inner inner content).map fun (first, second, third) info =>
      .triple info first second third
  | ("List", some content) => (Decoder.list inner content).map fun items info => .list info items
  | ("Lambda", some content) => do
    match ← fields ["args", "body"] content with
    | [params, body] =>
      let params ← required (Decoder.list pattern) params
      let body ← required inner body
      return fun info => .lambda info params body
    | _ => none
  | ("Record", some content) => (fieldsOf inner content).map fun entries info => .record info entries
  | ("RecordAccessFunction", some content) =>
    (Decoder.string content).map fun name info => .accessor info name
  | ("RecordAccess", some content) => do
    match ← fields ["record", "field"] content with
    | [subject, name] =>
      let subject ← required inner subject
      let name ← required Decoder.string name
      return fun info => .access info subject name
    | _ => none
  | ("RecordUpdate", some content) => do
    match ← fields ["record", "updates"] content with
    | [name, updates] =>
      let name ← required Decoder.string name
      let updates ← required (fieldsOf inner) updates
      return fun info => .update info name updates
    | _ => none
  | ("Parenthesized", some content) => (inner content).map fun inner info => .parenthesized info inner
  | ("Application", some content) => do
    match ← fields ["function", "args"] content with
    | [function, args] =>
      let function ← required inner function
      let args ← required (Decoder.list inner) args
      return fun info => .application info function args
    | _ => none
  | ("Operator", some content) => do
    match ← fields ["op", "left", "right"] content with
    | [op, left, right] =>
      let op ← required Operator.ofJson? op
      let left ← required inner left
      let right ← required inner right
      return fun info => .operation info op left right
    | _ => none
  | ("OperatorFunction", some content) => (Operator.ofJson? content).map fun op info => .operator info op
  | ("Negate", some content) => (inner content).map fun inner info => .negate info inner
  | ("If", some content) => do
    match ← fields ["condition", "then_branch", "else_branch"] content with
    | [condition, thenBranch, elseBranch] =>
      let condition ← required inner condition
      let thenBranch ← required inner thenBranch
      let elseBranch ← required inner elseBranch
      return fun info => .conditional info condition thenBranch elseBranch
    | _ => none
  | ("Let", some content) => do
    match ← fields ["bindings", "body"] content with
    | [bindings, body] =>
      let bindings ← required (Decoder.list (bindingOf pattern inner)) bindings
      let body ← required inner body
      return fun info => .letIn info bindings body
    | _ => none
  | ("Case", some content) => do
    match ← fields ["subject", "branches"] content with
    | [subject, branches] =>
      let subject ← required inner subject
      let branches ← required (branchesOf pattern inner) branches
      return fun info => .caseOf info subject branches
    | _ => none
  | ("Glsl", some content) => (Decoder.string content).map fun source info => .glsl info source
  | _ => none

/-- Read an expression in which expressions are nested at most `depth` deep. -/
def ofJsonWithin (format : InfoFormat ι) : Nat → Decoder (Expr ι)
  | 0, _ => none
  | depth + 1, json =>
    nodeOf format (kindOf (Pattern.ofJson? format) (ofJsonWithin format depth)) json

def ofJson? (format : InfoFormat ι) : Decoder (Expr ι) :=
  fun json => ofJsonWithin format (json.depth + 1) json

end Expr

end RowInference
