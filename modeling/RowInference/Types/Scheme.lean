import RowInference.Types.Basic

/-! # Type schemes

A scheme quantifies some variables of a type. Generalization quantifies the variables that the
surroundings do not mention; instantiation replaces the quantified ones by variables never used before,
in a single pass, so that old and new variables cannot be confused.
-/

namespace RowInference

/-- A type with quantified variables. -/
structure Scheme where
  /-- The quantified variables, normally in order of first appearance. -/
  binders : List TypeVar
  body : Ty
deriving DecidableEq, Repr

namespace Scheme

def mono (type : Ty) : Scheme := ⟨[], type⟩

instance : Inhabited Scheme := ⟨mono .unit⟩

/-- Quantify every free variable. -/
def closed (type : Ty) : Scheme := ⟨type.freeVars, type⟩

def isMono (scheme : Scheme) : Bool := scheme.binders.isEmpty

def binds (scheme : Scheme) (id : VarId) : Bool := scheme.binders.any fun binder => binder.id = id

/-- The variables of the body that are not quantified, in order of first appearance. -/
def freeVars (scheme : Scheme) : List TypeVar :=
  scheme.body.freeVars.filter fun var => !scheme.binds var.id

end Scheme

/-- Quantify the free variables of a type that are not among `fixed`. -/
def generalize (fixed : List VarId) (type : Ty) : Scheme :=
  ⟨type.freeVars.filter fun var => !fixed.contains var.id, type⟩

/-- Give each binder a fresh variable of the same class. -/
def Supply.freshen (supply : Supply) : List TypeVar → List (VarId × TypeVar) × Supply
  | [] => ([], supply)
  | binder :: rest =>
    let (var, supply) := supply.fresh binder.constraint
    let (renamed, supply) := supply.freshen rest
    ((binder.id, var) :: renamed, supply)

/-- The type of one use of a scheme: its body with fresh variables for the binders. Of several binders
with one identity the last decides. -/
def Scheme.instantiate (scheme : Scheme) (supply : Supply) : Ty × Supply :=
  if scheme.isMono then (scheme.body, supply)
  else
    let (renamed, supply) := supply.freshen scheme.binders
    let chosen : Std.ExtTreeMap VarId TypeVar := .ofList renamed
    (scheme.body.mapVars fun var => .var (chosen[var.id]?.getD var), supply)

end RowInference
