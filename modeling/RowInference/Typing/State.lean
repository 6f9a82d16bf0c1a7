import RowInference.Log.Event
import RowInference.Tree.Module
import RowInference.Typing.Error
import RowInference.Typing.Prelude

/-! # The state of inference

Inference walks a tree with an environment, a substitution that collects what has been learnt, the supply of fresh
variables and a count of the nodes it is inside of. A failure leaves the state as it is at that moment, except that
scopes and the count are restored on the way out.
-/

namespace RowInference

/-- What inference puts on a node: its place and its scheme. Only declarations have schemes with binders. -/
structure Typed where
  span : Span := {}
  scheme : Scheme := Scheme.mono .unit
deriving DecidableEq, Repr, Inhabited

namespace Typed

/-- The annotation of a node with a plain type. -/
def mono (span : Span) (type : Ty) : Typed := ⟨span, Scheme.mono type⟩

def type (typed : Typed) : Ty := typed.scheme.body

/-- Apply a substitution to the scheme. -/
def resolve (subst : Substitution) (typed : Typed) : Typed :=
  { typed with scheme := subst.applyScheme typed.scheme }

end Typed

abbrev Expr.type (expr : Expr Typed) : Ty := expr.info.type

abbrev Pattern.type (pattern : Pattern Typed) : Ty := pattern.info.type

/-- The type of a function with these parameters and this body. -/
def functionType (params : List (Pattern Typed)) (body : Expr Typed) : Ty :=
  Ty.curried (params.map Pattern.type) body.type

structure InferState where
  env : Environment := {}
  /-- What has been learnt about variables. -/
  subst : Substitution := {}
  supply : Supply := {}
  /-- How many nodes the current place is inside of. -/
  depth : Nat := 0
  /-- The names bound so far by the current group of patterns, in order. -/
  bound : List (String × Ty) := []
  events : List Event := []
deriving Inhabited

/-- Inference can fail with a type error, and changes the state also when it fails. -/
abbrev InferM := ExceptT TypeError (StateM InferState)

namespace InferM

def fail {α : Type} (fault : Fault) (span : Span) : InferM α := throw ⟨fault, span⟩

/-- A fresh variable, restricted to a class if one is given. -/
def fresh (constraint : Option Constraint := none) : InferM Ty :=
  modifyGet fun state =>
    let (var, supply) := state.supply.fresh constraint
    (.var var, { state with supply })

/-- The type of one use of a scheme. -/
def instantiate (scheme : Scheme) : InferM Ty :=
  modifyGet fun state =>
    let (type, supply) := scheme.instantiate state.supply
    (type, { state with supply })

/-- The type of one use of a name. -/
def lookup (name : String) (span : Span) : InferM Ty := do
  match (← get).env.get? name with
  | some scheme => instantiate scheme
  | none => fail (.unbound name) span

/-- Make two types equal, given what has been learnt, and learn what that takes. -/
def equate (expected actual : Ty) (span : Span) : InferM Unit := do
  let state ← get
  let expected := state.subst.apply expected
  let actual := state.subst.apply actual
  match (unify expected actual).run.run state.supply with
  | (.ok found, supply) =>
    if found.isEmpty then set { state with supply }
    else
      set { state with
        supply
        subst := state.subst.extend found
        events := .solved expected actual found :: state.events }
  | (.error error, supply) =>
    set { state with supply, events := .refused error :: state.events }
    fail (.ofUnify error) span

def declare (name : String) (scheme : Scheme) : InferM Unit :=
  modify fun state => { state with env := state.env.add name scheme }

/-- Run inside one more node; fail if there are `limit` around it already. -/
def nested {α : Type} (limit : Nat) (span : Span) (action : InferM α) : InferM α := fun state =>
  if state.depth ≥ limit then (.error ⟨.tooDeep limit, span⟩, state)
  else
    let (result, after) := action { state with depth := state.depth + 1 }
    (result, { after with depth := after.depth - 1 })

/-- Run in a scope of its own. -/
def inScope {α : Type} (action : InferM α) : InferM α := fun state =>
  let (result, after) := action { state with env := state.env.enter }
  (result, { after with env := after.env.exit })

/-- Record that the current group of patterns binds a name. -/
def bindName (name : String) (type : Ty) (span : Span) : InferM Unit := do
  let state ← get
  if state.bound.any fun entry => entry.1 == name then fail (.duplicate name) span
  else set { state with bound := state.bound ++ [(name, type)] }

/-- Run as a group of patterns and return the names it binds. -/
def group {α : Type} (action : InferM α) : InferM (α × List (String × Ty)) := do
  modify fun state => { state with bound := [] }
  let result ← action
  return (result, (← get).bound)

/-- Bind the names of a group of patterns in the current scope, each to its own type. -/
def declareAll : List (String × Ty) → InferM Unit
  | [] => pure ()
  | (name, type) :: rest => do
    declare name (Scheme.mono type)
    declareAll rest

end InferM

end RowInference
