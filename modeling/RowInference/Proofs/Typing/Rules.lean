import RowInference.Proofs.Types.Instantiation
import RowInference.Typing.Declaration

/-! # Typing rules

When the types on the nodes of a tree are consistent: each node relates to its parts as its form asks for, and each name
to what binds it. The rules say nothing about how such types are found.

A name that a pattern, a function or a let block binds has one type. Names from outside have schemes, and each use of
such a name is an instance of its scheme.
-/

namespace RowInference

/-! ## Names in scope -/

/-- The scheme of each name in scope. -/
abbrev Context := String → Option Scheme

namespace Context

def add (context : Context) (name : String) (scheme : Scheme) : Context :=
  fun other => if other = name then some scheme else context other

/-- Bind names to types, the last one innermost. -/
def addAll (context : Context) (names : List (String × Ty)) : Context :=
  names.foldl (fun context entry => context.add entry.1 (Scheme.mono entry.2)) context

end Context

/-- No name is bound twice. -/
def Distinct (names : List (String × Ty)) : Prop := (names.map Prod.fst).Nodup

/-- The type is the body with types for the binders, each within the class of its binder. -/
def Scheme.Instance (scheme : Scheme) (type : Ty) : Prop := scheme.Yields .var type

/-- The type of a field of a record, closed or not. -/
def Ty.field? (key : String) : Ty → Option Ty
  | .record fields | .extension _ fields => fields.get? key
  | _ => none

/-! ## Patterns -/

namespace Pattern

mutual

/-- The names a pattern binds, with their types, from left to right. -/
def names : Pattern Typed → List (String × Ty)
  | .var info name => [(name, info.type)]
  | .tuple _ first second => first.names ++ second.names
  | .triple _ first second third => first.names ++ (second.names ++ third.names)
  | .list _ items => namesOf items
  | .cons _ head tail => head.names ++ tail.names
  | .record info fields => fields.filterMap fun field => (info.type.field? field).map fun type => (field, type)
  | .aliased info inner name => inner.names ++ [(name, info.type)]
  | .parenthesized _ inner => inner.names
  | .unit _ | .wildcard _ | .integer .. | .hex .. | .float .. | .string .. | .char .. => []

def namesOf : List (Pattern Typed) → List (String × Ty)
  | [] => []
  | pattern :: rest => pattern.names ++ namesOf rest

end

/-- The rules for patterns. -/
inductive WellTyped : Pattern Typed → Prop where
  | unit {info : Typed} (type : info.type = .unit) : WellTyped (.unit info)
  | wildcard {info : Typed} : WellTyped (.wildcard info)
  | var {info : Typed} {name : String} : WellTyped (.var info name)
  | integer {info : Typed} {value : Int64} (type : info.type.Meets (some .number)) : WellTyped (.integer info value)
  | hex {info : Typed} {value : Int64} (type : info.type.Meets (some .number)) : WellTyped (.hex info value)
  | float {info : Typed} {value : Double} (type : info.type = .float) : WellTyped (.float info value)
  | string {info : Typed} {value : String} (type : info.type = .string) : WellTyped (.string info value)
  | char {info : Typed} {value : Char} (type : info.type = .char) : WellTyped (.char info value)
  | tuple {info : Typed} {first second : Pattern Typed} (firstOk : WellTyped first) (secondOk : WellTyped second)
      (type : info.type = .tuple first.type second.type) : WellTyped (.tuple info first second)
  | triple {info : Typed} {first second third : Pattern Typed} (firstOk : WellTyped first)
      (secondOk : WellTyped second) (thirdOk : WellTyped third)
      (type : info.type = .triple first.type second.type third.type) : WellTyped (.triple info first second third)
  | list {info : Typed} {items : List (Pattern Typed)} {element : Ty} (itemsOk : ∀ item ∈ items, WellTyped item)
      (elements : ∀ item ∈ items, item.type = element) (type : info.type = .list element) :
      WellTyped (.list info items)
  | cons {info : Typed} {head tail : Pattern Typed} (headOk : WellTyped head) (tailOk : WellTyped tail)
      (rest : tail.type = info.type) (type : info.type = .list head.type) : WellTyped (.cons info head tail)
  | record {info : Typed} {fields : List String} (record : info.type.isRecord = true)
      (present : ∀ field ∈ fields, info.type.field? field ≠ none) : WellTyped (.record info fields)
  | aliased {info : Typed} {inner : Pattern Typed} {name : String} (innerOk : WellTyped inner)
      (type : info.type = inner.type) : WellTyped (.aliased info inner name)
  | parenthesized {info : Typed} {inner : Pattern Typed} (innerOk : WellTyped inner)
      (type : info.type = inner.type) : WellTyped (.parenthesized info inner)

end Pattern

/-! ## Expressions -/

namespace Expr

/-- The names that let bindings bind, in order. -/
def bindingNames : List (Binding Typed) → List (String × Ty)
  | [] => []
  | .function name params body :: rest => (name, functionType params body) :: bindingNames rest
  | .destructuring pattern _ :: rest => pattern.names ++ bindingNames rest

mutual

/-- The rules for expressions. A block of shader code has no type. -/
inductive WellTyped : Context → Expr Typed → Prop where
  | unit {context : Context} {info : Typed} (type : info.type = .unit) : WellTyped context (.unit info)
  | integer {context : Context} {info : Typed} {value : Int64} (type : info.type.Meets (some .number)) :
      WellTyped context (.integer info value)
  | hex {context : Context} {info : Typed} {value : Int64} (type : info.type.Meets (some .number)) :
      WellTyped context (.hex info value)
  | float {context : Context} {info : Typed} {value : Double} (type : info.type = .float) :
      WellTyped context (.float info value)
  | string {context : Context} {info : Typed} {value : String} (type : info.type = .string) :
      WellTyped context (.string info value)
  | char {context : Context} {info : Typed} {value : Char} (type : info.type = .char) :
      WellTyped context (.char info value)
  | var {context : Context} {info : Typed} {name : String} {scheme : Scheme} (found : context name = some scheme)
      (type : scheme.Instance info.type) : WellTyped context (.var info name)
  | tuple {context : Context} {info : Typed} {first second : Expr Typed} (firstOk : WellTyped context first)
      (secondOk : WellTyped context second) (type : info.type = .tuple first.type second.type) :
      WellTyped context (.tuple info first second)
  | triple {context : Context} {info : Typed} {first second third : Expr Typed} (firstOk : WellTyped context first)
      (secondOk : WellTyped context second) (thirdOk : WellTyped context third)
      (type : info.type = .triple first.type second.type third.type) :
      WellTyped context (.triple info first second third)
  | list {context : Context} {info : Typed} {items : List (Expr Typed)} {element : Ty}
      (itemsOk : ∀ item ∈ items, WellTyped context item) (elements : ∀ item ∈ items, item.type = element)
      (type : info.type = .list element) : WellTyped context (.list info items)
  | lambda {context : Context} {info : Typed} {params : List (Pattern Typed)} {body : Expr Typed}
      (paramsOk : ∀ param ∈ params, param.WellTyped) (distinct : Distinct (Pattern.namesOf params))
      (bodyOk : WellTyped (context.addAll (Pattern.namesOf params)) body)
      (type : info.type = functionType params body) : WellTyped context (.lambda info params body)
  | record {context : Context} {info : Typed} {fields : List (Field Typed)}
      (valuesOk : ∀ name value, .mk name value ∈ fields → WellTyped context value)
      (type : info.type = .record (fieldTypes fields)) : WellTyped context (.record info fields)
  | accessor {context : Context} {info : Typed} {field : String} {subject result : Ty}
      (found : subject.field? field = some result) (type : info.type = .function subject result) :
      WellTyped context (.accessor info field)
  | access {context : Context} {info : Typed} {subject : Expr Typed} {field : String}
      (subjectOk : WellTyped context subject) (type : subject.type.field? field = some info.type) :
      WellTyped context (.access info subject field)
  | update {context : Context} {info : Typed} {name : String} {scheme : Scheme} {updates : List (Field Typed)}
      (found : context name = some scheme) (valuesOk : ∀ name value, .mk name value ∈ updates → WellTyped context value)
      (record : info.type.isRecord = true)
      (present : ∀ key type, (fieldTypes updates).get? key = some type → info.type.field? key = some type)
      (type : scheme.Instance info.type) : WellTyped context (.update info name updates)
  | parenthesized {context : Context} {info : Typed} {inner : Expr Typed} (innerOk : WellTyped context inner)
      (type : info.type = inner.type) : WellTyped context (.parenthesized info inner)
  | application {context : Context} {info : Typed} {function : Expr Typed} {args : List (Expr Typed)}
      (functionOk : WellTyped context function) (argsOk : ∀ arg ∈ args, WellTyped context arg)
      (type : function.type = Ty.curried (args.map Expr.type) info.type) :
      WellTyped context (.application info function args)
  | operation {context : Context} {info : Typed} {op : Operator} {left right : Expr Typed}
      (leftOk : WellTyped context left) (rightOk : WellTyped context right)
      (type : (Prelude.operatorScheme op).Instance (Ty.curried [left.type, right.type] info.type)) :
      WellTyped context (.operation info op left right)
  | operator {context : Context} {info : Typed} {op : Operator}
      (type : (Prelude.operatorScheme op).Instance info.type) : WellTyped context (.operator info op)
  | negate {context : Context} {info : Typed} {inner : Expr Typed} (innerOk : WellTyped context inner)
      (number : info.type.Meets (some .number)) (type : info.type = inner.type) :
      WellTyped context (.negate info inner)
  | conditional {context : Context} {info : Typed} {condition thenBranch elseBranch : Expr Typed}
      (conditionOk : WellTyped context condition) (thenOk : WellTyped context thenBranch)
      (elseOk : WellTyped context elseBranch) (boolean : condition.type = .bool) (same : elseBranch.type = info.type)
      (type : info.type = thenBranch.type) :
      WellTyped context (.conditional info condition thenBranch elseBranch)
  | letIn {context : Context} {info : Typed} {bindings : List (Binding Typed)} {body : Expr Typed}
      (bindingsOk : BindingsTyped context bindings) (distinct : Distinct (bindingNames bindings))
      (bodyOk : WellTyped (context.addAll (bindingNames bindings)) body) (type : info.type = body.type) :
      WellTyped context (.letIn info bindings body)
  | caseOf {context : Context} {info : Typed} {subject : Expr Typed} {branches : List (Branch Typed)}
      (subjectOk : WellTyped context subject)
      (patternsOk : ∀ pattern body, .mk pattern body ∈ branches → pattern.WellTyped)
      (distinct : ∀ pattern body, .mk pattern body ∈ branches → Distinct pattern.names)
      (subjects : ∀ pattern body, .mk pattern body ∈ branches → pattern.type = subject.type)
      (bodiesOk : ∀ pattern body, .mk pattern body ∈ branches → WellTyped (context.addAll pattern.names) body)
      (type : ∀ pattern body, .mk pattern body ∈ branches → body.type = info.type) :
      WellTyped context (.caseOf info subject branches)

/-- The rules for let bindings. A function can use itself, and every binding can use those before it. -/
inductive BindingsTyped : Context → List (Binding Typed) → Prop where
  | nil {context : Context} : BindingsTyped context []
  | function {context : Context} {name : String} {params : List (Pattern Typed)} {body : Expr Typed}
      {rest : List (Binding Typed)} (paramsOk : ∀ param ∈ params, param.WellTyped)
      (distinct : Distinct (Pattern.namesOf params))
      (bodyOk : WellTyped ((context.addAll [(name, functionType params body)]).addAll (Pattern.namesOf params)) body)
      (restOk : BindingsTyped (context.addAll [(name, functionType params body)]) rest) :
      BindingsTyped context (.function name params body :: rest)
  | destructuring {context : Context} {pattern : Pattern Typed} {body : Expr Typed} {rest : List (Binding Typed)}
      (bodyOk : WellTyped context body) (patternOk : pattern.WellTyped) (distinct : Distinct pattern.names)
      (same : pattern.type = body.type) (restOk : BindingsTyped (context.addAll pattern.names) rest) :
      BindingsTyped context (.destructuring pattern body :: rest)

end

end Expr

/-! ## Declarations -/

/-- The rules for a declaration: inside, its name has one type; its scheme quantifies all variables of that type. -/
structure Declaration.WellTyped (context : Context) (declaration : Declaration Typed) : Prop where
  paramsOk : ∀ param ∈ declaration.params, param.WellTyped
  distinct : Distinct (Pattern.namesOf declaration.params)
  bodyOk : declaration.body.WellTyped ((context.addAll [(declaration.name,
    functionType declaration.params declaration.body)]).addAll (Pattern.namesOf declaration.params))
  scheme : declaration.info.scheme = Scheme.closed (functionType declaration.params declaration.body)

/-- The names that declarations bind, on top of others. -/
def Context.declare (context : Context) (declarations : List (Declaration Typed)) : Context :=
  declarations.foldl (fun context declaration => context.add declaration.name declaration.info.scheme) context

/-- The rules for a module: each declaration can use itself and those before it. -/
def Module.WellTyped (context : Context) (module : Module Typed) : Prop :=
  ∀ before declaration after, module.declarations = before ++ declaration :: after →
    declaration.WellTyped (context.declare before)

end RowInference
