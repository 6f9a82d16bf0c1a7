import RowInference.Typing.Expr

/-! # Inference of declarations

A declaration is inferred with a substitution of its own. When it is done, the substitution is applied to the whole
tree and dropped, and the declared name gets a scheme that quantifies what the environment leaves open.
-/

namespace RowInference

open InferM (inScope fresh equate declare)

namespace InferM

def forget : InferM Unit := modify fun state => { state with subst := {} }

/-- What has been learnt; it is forgotten thereby. -/
def takeSubst : InferM Substitution :=
  modifyGet fun state => (state.subst, { state with subst := {} })

def report (event : Event) : InferM Unit :=
  modify fun state => { state with events := event :: state.events }

end InferM

namespace Declaration

/-- Infer the parameters and the body, with the declared name bound to one type inside. -/
def inferBody (limit : Nat) (self : Ty) (declaration : Declaration Span) :
    InferM (List (Pattern Typed) × Expr Typed) :=
  inScope do
    declare declaration.name (Scheme.mono self)
    let params ← Expr.inferParams limit declaration.params
    let body ← declaration.body.infer limit
    equate self (functionType params body) declaration.info
    return (params, body)

/-- Infer a declaration and bind its name to its scheme in the current scope. -/
def infer (limit : Nat) (declaration : Declaration Span) : InferM (Declaration Typed) := do
  InferM.forget
  let self ← fresh
  let (params, body) ← inferBody limit self declaration
  let subst ← InferM.takeSubst
  let state ← get
  let scheme := generalize (state.env.freeIds subst) (subst.apply self)
  InferM.report (.declared declaration.name scheme)
  declare declaration.name scheme
  return {
    name := declaration.name
    params := params.map (Pattern.mapInfo (Typed.resolve subst))
    body := body.mapInfo (Typed.resolve subst)
    info := ⟨declaration.info, scheme⟩ }

def inferAll (limit : Nat) : List (Declaration Span) → InferM (List (Declaration Typed))
  | [] => return []
  | declaration :: rest => do
    let declaration ← declaration.infer limit
    let rest ← inferAll limit rest
    return declaration :: rest

end Declaration

/-- Infer an expression that stands alone, and complete the types on its nodes. -/
def Expr.inferClosed (limit : Nat) (expr : Expr Span) : InferM (Expr Typed) := do
  InferM.forget
  let typed ← expr.infer limit
  let subst ← InferM.takeSubst
  return typed.mapInfo (Typed.resolve subst)

end RowInference
