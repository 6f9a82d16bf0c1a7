import RowInference.Typing.Checker

/-! # The inference engine

Whole runs: each one starts with a new checker. A run also gives the events in the order in which they happened.
-/

namespace RowInference

/-- The limit on nesting when none is asked for. -/
def defaultDepth : Nat := 512

structure Run (α : Type) where
  result : Except Error α
  events : List Event

namespace Engine

def run {α : Type} (limit : Nat) (call : CheckM α) : Run α :=
  let (result, checker) := call { limit }
  ⟨result, checker.events.reverse⟩

def infer (limit : Nat) (modules : ModuleMap Span) : Run (ModuleMap Typed) :=
  run limit do
    CheckM.report (.inferring modules.length)
    let typed ← Checker.checkModules modules
    CheckM.report .succeeded
    return typed

/-- Infer one module under its own name. -/
def inferModule (limit : Nat) (module : Module Span) : Run (ModuleMap Typed) :=
  infer limit [(module.name, module)]

/-- The type of an expression with only the prelude in scope. -/
def inferExpr (limit : Nat) (expr : Expr Span) : Run Ty :=
  run limit do
    let typed ← Checker.checkExpr expr
    return typed.type

/-- The stack that a run with this limit may need, in bytes of 64-bit memory: a fixed part and a part for each
level of nesting. -/
def stackSize (limit : UInt64) : UInt64 :=
  let bytes := limit.toNat * 131072 + 8388608
  if bytes < UInt64.size then UInt64.ofNat bytes else UInt64.ofNat (UInt64.size - 1)

end Engine

/-- The scheme of a declaration of an inferred module. -/
def ModuleMap.typeOf (modules : ModuleMap Typed) (key name : String) : Except InputError Scheme :=
  match modules.get? key with
  | none => .error (.moduleNotFound key)
  | some module =>
    match module.declaration? name with
    | none => .error (.declarationNotFound key name)
    | some declaration => .ok declaration.info.scheme

end RowInference
