import RowInference.Typing.Declaration
import RowInference.Typing.ModuleGraph

/-! # Inference of modules

A checker keeps the modules inferred so far and the supply of variables, which all of its modules share. What a
failed call has used of the supply stays used, and the modules it had finished stay.
-/

namespace RowInference

structure Checker where
  /-- How deep expressions and patterns may be nested. -/
  limit : Nat := 512
  supply : Supply := {}
  /-- The modules inferred so far, in the order in which their keys first came up. -/
  checked : ModuleMap Typed := []
  events : List Event := []
deriving Inhabited

abbrev CheckM := ExceptT Error (StateM Checker)

namespace CheckM

/-- Run inference in an environment, from an empty substitution. -/
def infer {α : Type} (env : Environment) (action : Nat → InferM α) : CheckM α := fun checker =>
  let start : InferState := { env, supply := checker.supply, events := checker.events }
  let (result, after) := action checker.limit start
  (result.mapError Error.type, { checker with supply := after.supply, events := after.events })

def report (event : Event) : CheckM Unit :=
  modify fun checker => { checker with events := event :: checker.events }

/-- Go on with a value, or fail with an input error. -/
def ofInput {α : Type} (result : Except InputError α) : CheckM α :=
  liftM (result.mapError Error.input)

end CheckM

namespace Checker

/-- The environment of the module `key` with these imports, among the modules inferred before. -/
def importAll (checked : ModuleMap Typed) (key : String) :
    Environment → List Import → Except InputError Environment
  | env, [] => .ok env
  | env, entry :: rest =>
    match checked.get? entry.target with
    | some module => importAll checked key (env.addImport entry module) rest
    | none => .error (.unknownImport key entry.target)

/-- Infer a module whose imports have been inferred. The result is not kept. -/
def checkModule (key : String) (module : Module Span) : CheckM (Module Typed) := do
  CheckM.report (.checking key)
  CheckM.ofInput module.checkUnique
  let checker ← get
  let env ← CheckM.ofInput (importAll checker.checked key Prelude.environment module.imports)
  let declarations ← CheckM.infer env fun limit => Declaration.inferAll limit module.declarations
  return { name := module.name, imports := module.imports, declarations }

/-- Infer the modules under the given keys in that order and keep the results. -/
def checkInOrder (modules : ModuleMap Span) : List String → CheckM Unit
  | [] => pure ()
  | key :: rest =>
    match modules.get? key with
    | none => checkInOrder modules rest
    | some module => do
      let typed ← checkModule key module
      modify fun checker => { checker with checked := checker.checked.insert key typed }
      checkInOrder modules rest

/-- Infer modules, each after those it imports. The result has them in the order in which they are given. -/
def checkModules (modules : ModuleMap Span) : CheckM (ModuleMap Typed) := do
  let order ← CheckM.ofInput modules.dependencyOrder
  CheckM.report (.ordered order)
  checkInOrder modules order
  let checker ← get
  return modules.keys.filterMap fun key => (checker.checked.get? key).map fun typed => (key, typed)

def checkExpr (expr : Expr Span) : CheckM (Expr Typed) :=
  CheckM.infer Prelude.environment fun limit => expr.inferClosed limit

end Checker

end RowInference
