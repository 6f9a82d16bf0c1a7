import RowInference.Typing.Declaration

/-! # Scripts of inference

A script spells out the steps of an inference, and its type says which inference that is. What holds of every inference
is shown by going through its script: the forms of expressions are gone through once, when the scripts are written
down, and a property of runs is then a matter of a dozen kinds of steps.

The moments of a script are the states it passes through, the equations it poses and the types it puts on nodes, in
the order of the run, up to its end or to its failure.
-/

namespace RowInference

/-- The steps of an inference. A fresh variable that becomes the base of a record is told apart from others, by the
fields it will stand below; these may depend on the number of the variable. -/
inductive Script : {α : Type} → InferM α → Type 1 where
  | done {α : Type} (value : α) : Script (pure value)
  | fail {α : Type} (fault : Fault) (span : Span) : Script (InferM.fail fault span : InferM α)
  | fresh (constraint : Option Constraint) : Script (InferM.fresh constraint)
  | rowBase (fields : Nat → Row) : Script InferM.fresh
  | instantiate (op : Operator) : Script (InferM.instantiate (Prelude.operatorScheme op))
  | lookup (name : String) (span : Span) : Script (InferM.lookup name span)
  | equate (expected actual : Ty) (span : Span) : Script (InferM.equate expected actual span)
  | declare (name : String) (scheme : Scheme) : Script (InferM.declare name scheme)
  | bindName (name : String) (type : Ty) (span : Span) : Script (InferM.bindName name type span)
  | forget : Script InferM.forget
  | takeSubst : Script InferM.takeSubst
  | report (event : Event) : Script (InferM.report event)
  | getState : Script (get : InferM InferState)
  | andThen {α β : Type} {action : InferM α} {next : α → InferM β} (first : Script action)
      (rest : (value : α) → Script (next value)) : Script (action >>= next)
  | choose {α : Type} {yes no : InferM α} (condition : Prop) [Decidable condition] (ifYes : Script yes)
      (ifNo : Script no) : Script (if condition then yes else no)
  | group {α : Type} {action : InferM α} (inner : Script action) : Script (InferM.group action)
  | inScope {α : Type} {action : InferM α} (inner : Script action) : Script (InferM.inScope action)
  | node {α : Type} {action : InferM α} (typeOf : α → Ty) (limit : Nat) (span : Span) (inner : Script action) :
      Script (InferM.nested limit span action)

/-- What can be seen of a run. -/
inductive Moment where
  | reached (state : InferState)
  /-- The two types of an equation, and the state in which it is posed. -/
  | posed (state : InferState) (expected actual : Ty)
  | typed (type : Ty)

/-- The moments of a run from a state. -/
def Script.moments : {α : Type} → {action : InferM α} → Script action → InferState → List Moment
  | _, _, .done _, _ => []
  | _, _, .fail _ _, _ => []
  | _, _, .fresh constraint, state => [.reached (InferM.fresh constraint state).2]
  | _, _, .rowBase _, state => [.reached (InferM.fresh none state).2]
  | _, _, .instantiate op, state => [.reached (InferM.instantiate (Prelude.operatorScheme op) state).2]
  | _, _, .lookup name span, state => [.reached (InferM.lookup name span state).2]
  | _, _, .equate expected actual span, state =>
    [.posed state expected actual, .reached (InferM.equate expected actual span state).2]
  | _, _, .declare name scheme, state => [.reached (InferM.declare name scheme state).2]
  | _, _, .bindName name type span, state => [.reached (InferM.bindName name type span state).2]
  | _, _, .forget, state => [.reached (InferM.forget state).2]
  | _, _, .takeSubst, state => [.reached (InferM.takeSubst state).2]
  | _, _, .report event, state => [.reached (InferM.report event state).2]
  | _, _, .getState, _ => []
  | _, _, @andThen _ _ action _ first rest, state =>
    first.moments state ++ match action state with
      | (.ok value, after) => (rest value).moments after
      | (.error _, _) => []
  | _, _, @choose _ _ _ condition _ ifYes ifNo, state =>
    if condition then ifYes.moments state else ifNo.moments state
  | _, _, .group inner, state => .reached { state with bound := [] } :: inner.moments { state with bound := [] }
  | _, _, @inScope _ action inner, state =>
    .reached { state with env := state.env.enter } :: (inner.moments { state with env := state.env.enter } ++
      [.reached (InferM.inScope action state).2])
  | _, _, @node _ action typeOf limit span inner, state =>
    if state.depth ≥ limit then []
    else
      .reached { state with depth := state.depth + 1 } :: (inner.moments { state with depth := state.depth + 1 } ++
        match InferM.nested limit span action state with
        | (.ok value, after) => [.typed (typeOf value), .reached after]
        | (.error _, after) => [.reached after])

/-! ## Patterns -/

namespace Pattern

/-- Fields with consecutive variables. -/
def fieldVars (first : Nat) : List String → List (String × Ty)
  | [] => []
  | field :: rest => (field, .var (.generated first)) :: fieldVars (first + 1) rest

def fieldsScript (span : Span) : (fields : List String) → Script (inferFields span fields)
  | [] => .done []
  | field :: rest =>
    .andThen (.fresh none) fun type => .andThen (.bindName field type span) fun _ =>
      .andThen (fieldsScript span rest) fun _ => .done _

mutual

def script (limit : Nat) : (pattern : Pattern Span) → Script (pattern.infer limit)
  | .unit span => .node type limit span (.done _)
  | .wildcard span => .node type limit span (.andThen (.fresh none) fun _ => .done _)
  | .var span name =>
    .node type limit span (.andThen (.fresh none) fun type => .andThen (.bindName name type span) fun _ => .done _)
  | .integer span _ => .node type limit span (.andThen (.fresh (some .number)) fun _ => .done _)
  | .hex span _ => .node type limit span (.andThen (.fresh (some .number)) fun _ => .done _)
  | .float span _ => .node type limit span (.done _)
  | .string span _ => .node type limit span (.done _)
  | .char span _ => .node type limit span (.done _)
  | .tuple span first second =>
    .node type limit span (.andThen (first.script limit) fun _ => .andThen (second.script limit) fun _ => .done _)
  | .triple span first second third =>
    .node type limit span (.andThen (first.script limit) fun _ => .andThen (second.script limit) fun _ =>
      .andThen (third.script limit) fun _ => .done _)
  | .list span items =>
    .node type limit span (.andThen (.fresh none) fun element =>
      .andThen (itemsScript limit element items) fun _ => .done _)
  | .cons span head tail =>
    .node type limit span (.andThen (head.script limit) fun head => .andThen (tail.script limit) fun tail =>
      .andThen (.equate (.list head.type) tail.type tail.info.span) fun _ => .done _)
  | .record span fields =>
    .node type limit span (.andThen (.rowBase fun base => Row.ofList (fieldVars (base + 1) fields)) fun _ =>
      .andThen (fieldsScript span fields) fun _ => .done _)
  | .aliased span inner name =>
    .node type limit span (.andThen (inner.script limit) fun inner =>
      .andThen (.bindName name inner.type span) fun _ => .done _)
  | .parenthesized span inner => .node type limit span (.andThen (inner.script limit) fun _ => .done _)

def itemsScript (limit : Nat) (element : Ty) :
    (items : List (Pattern Span)) → Script (inferItems limit element items)
  | [] => .done []
  | item :: rest =>
    .andThen (item.script limit) fun item => .andThen (.equate element item.type item.info.span) fun _ =>
      .andThen (itemsScript limit element rest) fun _ => .done _

end

def allScript (limit : Nat) : (patterns : List (Pattern Span)) → Script (inferAll limit patterns)
  | [] => .done []
  | pattern :: rest => .andThen (pattern.script limit) fun _ => .andThen (allScript limit rest) fun _ => .done _

end Pattern

/-! ## Expressions -/

def declareAllScript : (names : List (String × Ty)) → Script (InferM.declareAll names)
  | [] => .done ()
  | (name, type) :: rest => .andThen (.declare name (Scheme.mono type)) fun _ => declareAllScript rest

namespace Expr

def paramsScript (limit : Nat) (params : List (Pattern Span)) : Script (inferParams limit params) :=
  .andThen (.group (Pattern.allScript limit params)) fun (_, names) =>
    .andThen (declareAllScript names) fun _ => .done _

def takeNamesScript (span : Span) (seen : List String) :
    (names : List (String × Ty)) → Script (takeNames span seen names)
  | [] => .done _
  | (name, _) :: rest => .choose _ (.fail (.duplicate name) span) (takeNamesScript span (seen ++ [name]) rest)

def argScript {infer : InferM (Expr Typed)} (function : Ty) (inner : Script infer) : Script (inferArg function infer) :=
  .andThen inner fun arg => .andThen (.fresh none) fun result =>
    .andThen (.equate function (.function arg.type result) arg.info.span) fun _ => .done _

def functionScript {infer : InferM (Expr Typed)} (limit : Nat) (params : List (Pattern Span)) (inner : Script infer) :
    Script (inferFunction limit params infer) :=
  .inScope (.andThen (paramsScript limit params) fun _ => .andThen inner fun _ => .done _)

def localScript {infer : InferM (Expr Typed)} (limit : Nat) (seen : List String) (name : String) (place : Span)
    (params : List (Pattern Span)) (inner : Script infer) : Script (inferLocal limit seen name place params infer) :=
  .choose _ (.fail (.duplicate name) place)
    (.andThen (.fresh none) fun self => .andThen (.declare name (Scheme.mono self)) fun _ =>
      .andThen (functionScript limit params inner) fun (params, body) =>
        .andThen (.equate self (functionType params body) body.info.span) fun _ => .done _)

def branchScript {infer : InferM (Expr Typed)} (limit : Nat) (subject result : Ty) (pattern : Pattern Span)
    (inner : Script infer) : Script (inferBranch limit subject result pattern infer) :=
  .inScope (.andThen (.group (pattern.script limit)) fun (pattern, names) =>
    .andThen (.equate subject pattern.type pattern.info.span) fun _ => .andThen (declareAllScript names) fun _ =>
      .andThen inner fun body => .andThen (.equate result body.type body.info.span) fun _ => .done _)

mutual

def script (limit : Nat) : (expr : Expr Span) → Script (expr.infer limit)
  | .unit span => .node type limit span (.done _)
  | .integer span _ => .node type limit span (.andThen (.fresh (some .number)) fun _ => .done _)
  | .hex span _ => .node type limit span (.andThen (.fresh (some .number)) fun _ => .done _)
  | .float span _ => .node type limit span (.done _)
  | .string span _ => .node type limit span (.done _)
  | .char span _ => .node type limit span (.done _)
  | .var span name => .node type limit span (.andThen (.lookup name span) fun _ => .done _)
  | .tuple span first second =>
    .node type limit span (.andThen (first.script limit) fun _ => .andThen (second.script limit) fun _ => .done _)
  | .triple span first second third =>
    .node type limit span (.andThen (first.script limit) fun _ => .andThen (second.script limit) fun _ =>
      .andThen (third.script limit) fun _ => .done _)
  | .list span items =>
    .node type limit span (.andThen (.fresh none) fun element =>
      .andThen (itemsScript limit element items) fun _ => .done _)
  | .lambda span params body =>
    .node type limit span (.andThen (functionScript limit params (body.script limit)) fun (_, _) => .done _)
  | .record span fields => .node type limit span (.andThen (fieldsScript limit fields) fun _ => .done _)
  | .accessor span field =>
    .node type limit span (.andThen (.rowBase fun base => Row.ofList [(field, .var (.generated (base + 1)))]) fun _ =>
      .andThen (.fresh none) fun _ => .done _)
  | .access span subject field =>
    .node type limit span (.andThen (subject.script limit) fun subject =>
      .andThen (.rowBase fun base => Row.ofList [(field, .var (.generated (base + 1)))]) fun base =>
        .andThen (.fresh none) fun type =>
          .andThen (.equate (.extension base (Row.ofList [(field, type)])) subject.type subject.info.span)
            fun _ => .done _)
  | .update span name updates =>
    .node type limit span (.andThen (.lookup name span) fun type => .andThen (fieldsScript limit updates) fun updates =>
      .andThen (.rowBase fun _ => fieldTypes updates) fun base =>
        .andThen (.equate (.extension base (fieldTypes updates)) type span) fun _ => .done _)
  | .parenthesized span inner => .node type limit span (.andThen (inner.script limit) fun _ => .done _)
  | .application span function args =>
    .node type limit span (.andThen (function.script limit) fun function =>
      .andThen (argsScript limit function.type args) fun (_, _) => .done _)
  | .operation span op left right =>
    .node type limit span (.andThen (.instantiate op) fun type =>
      .andThen (argScript type (left.script limit)) fun (_, type) =>
        .andThen (argScript type (right.script limit)) fun (_, _) => .done _)
  | .operator span op => .node type limit span (.andThen (.instantiate op) fun _ => .done _)
  | .negate span inner =>
    .node type limit span (.andThen (inner.script limit) fun inner => .andThen (.fresh (some .number)) fun type =>
      .andThen (.equate type inner.type inner.info.span) fun _ => .done _)
  | .conditional span condition thenBranch elseBranch =>
    .node type limit span (.andThen (condition.script limit) fun condition =>
      .andThen (.equate .bool condition.type condition.info.span) fun _ =>
        .andThen (thenBranch.script limit) fun thenBranch =>
        .andThen (elseBranch.script limit) fun elseBranch =>
          .andThen (.equate thenBranch.type elseBranch.type elseBranch.info.span) fun _ => .done _)
  | .letIn span bindings body =>
    .node type limit span (.andThen (.inScope (.andThen (bindingsScript limit [] bindings) fun _ =>
      .andThen (body.script limit) fun _ => .done _)) fun (_, _) => .done _)
  | .caseOf span subject branches =>
    .node type limit span (.andThen (subject.script limit) fun subject => .andThen (.fresh none) fun result =>
      .andThen (branchesScript limit subject.type result branches) fun _ => .done _)
  | .glsl span _ => .node type limit span (.fail (.unsupported "glsl") span)

def argsScript (limit : Nat) (function : Ty) : (args : List (Expr Span)) → Script (inferArgs limit function args)
  | [] => .done _
  | arg :: rest =>
    .andThen (argScript function (arg.script limit)) fun (_, result) =>
      .andThen (argsScript limit result rest) fun (_, _) =>
      .done _

def itemsScript (limit : Nat) (element : Ty) : (items : List (Expr Span)) → Script (inferItems limit element items)
  | [] => .done _
  | item :: rest =>
    .andThen (item.script limit) fun item => .andThen (.equate element item.type item.info.span) fun _ =>
      .andThen (itemsScript limit element rest) fun _ => .done _

def fieldsScript (limit : Nat) : (fields : List (Field Span)) → Script (inferFields limit fields)
  | [] => .done _
  | .mk _ value :: rest => .andThen (value.script limit) fun _ => .andThen (fieldsScript limit rest) fun _ => .done _

def branchesScript (limit : Nat) (subject result : Ty) :
    (branches : List (Branch Span)) → Script (inferBranches limit subject result branches)
  | [] => .done _
  | .mk pattern body :: rest =>
    .andThen (branchScript limit subject result pattern (body.script limit)) fun _ =>
      .andThen (branchesScript limit subject result rest) fun _ => .done _

def bindingsScript (limit : Nat) (seen : List String) :
    (bindings : List (Binding Span)) → Script (inferBindings limit seen bindings)
  | [] => .done _
  | .function name params body :: rest =>
    .andThen (localScript limit seen name body.info params (body.script limit)) fun _ =>
      .andThen (bindingsScript limit (seen ++ [name]) rest) fun _ => .done _
  | .destructuring pattern body :: rest =>
    .andThen (body.script limit) fun body => .andThen (.group (pattern.script limit)) fun (pattern, names) =>
      .andThen (.equate pattern.type body.type body.info.span) fun _ =>
        .andThen (takeNamesScript pattern.info.span seen names) fun seen => .andThen (declareAllScript names) fun _ =>
          .andThen (bindingsScript limit seen rest) fun _ => .done _

end

def closedScript (limit : Nat) (expr : Expr Span) : Script (expr.inferClosed limit) :=
  .andThen .forget fun _ => .andThen (expr.script limit) fun _ => .andThen .takeSubst fun _ => .done _

end Expr

/-! ## Declarations -/

namespace Declaration

def bodyScript (limit : Nat) (self : Ty) (declaration : Declaration Span) : Script (inferBody limit self declaration) :=
  .inScope (.andThen (.declare declaration.name (Scheme.mono self)) fun _ =>
    .andThen (Expr.paramsScript limit declaration.params) fun params =>
      .andThen (declaration.body.script limit) fun body =>
      .andThen (.equate self (functionType params body) declaration.info) fun _ => .done _)

def script (limit : Nat) (declaration : Declaration Span) : Script (declaration.infer limit) :=
  .andThen .forget fun _ => .andThen (.fresh none) fun self =>
    .andThen (bodyScript limit self declaration) fun (_, _) =>
    .andThen .takeSubst fun _ => .andThen .getState fun _ => .andThen (.report _) fun _ =>
      .andThen (.declare declaration.name _) fun _ =>
      .done _

def allScript (limit : Nat) : (declarations : List (Declaration Span)) → Script (inferAll limit declarations)
  | [] => .done _
  | declaration :: rest => .andThen (declaration.script limit) fun _ => .andThen (allScript limit rest) fun _ => .done _

end Declaration

end RowInference
