import RowInference.Substitution

/-! # Environments

An environment gives schemes to names, in nested scopes. There is always a scope: the outermost one belongs to the
module and is never left.
-/

namespace RowInference

abbrev Scope := Std.ExtTreeMap String Scheme

/-- The scopes around a place, the current one apart. -/
structure Environment where
  inner : Scope := {}
  /-- The scopes around it, nearest first. -/
  outer : List Scope := []
deriving Inhabited

namespace Environment

def scopes (env : Environment) : List Scope := env.inner :: env.outer

/-- Bind a name in the current scope, replacing its binding there. -/
def add (env : Environment) (name : String) (scheme : Scheme) : Environment :=
  { env with inner := env.inner.insert name scheme }

/-- The scheme of the innermost binding of a name. -/
def get? (env : Environment) (name : String) : Option Scheme :=
  env.scopes.findSome? fun scope => scope[name]?

def enter (env : Environment) : Environment := ⟨{}, env.scopes⟩

/-- Leave the current scope, unless it is the module's. -/
def exit (env : Environment) : Environment :=
  match env.outer with
  | [] => env
  | scope :: rest => ⟨scope, rest⟩

def depth (env : Environment) : Nat := env.scopes.length

/-- All bound names in increasing order, each once. -/
def names (env : Environment) : List String :=
  let names : Std.ExtTreeMap String Unit :=
    .ofList ((env.scopes.flatMap fun scope => scope.keys).map fun name => (name, ()))
  names.keys

/-- The free variables of all schemes under a substitution, those of shadowed names included; in increasing order,
each once. -/
def freeIds (env : Environment) (subst : Substitution) : List VarId :=
  let schemes := env.scopes.flatMap fun scope => scope.values
  let vars := schemes.flatMap fun scheme => (subst.applyScheme scheme).freeVars
  let ids : Std.ExtTreeMap VarId Unit := .ofList (vars.map fun var => (var.id, ()))
  ids.keys

end Environment

end RowInference
