import RowInference.Proofs.Inference.Completion

/-! # Scopes and depth

Inference opens scopes and counts the nodes around a place, and may fail anywhere inside. Whatever it runs into, it
leaves the scopes around the current one and the depth as they were: a step that opens something closes it on both ways
out. A *contained* script declares names only in scopes that it opens itself, so it leaves the whole environment as it
was. The scripts of patterns and expressions are contained; that of a declaration declares one name at its end, when
nothing can fail any more.
-/

namespace RowInference

/-! ## Steps and scripts -/

/-- No name is declared in the current scope. -/
@[simp] def Script.Contained : {α : Type} → {action : InferM α} → Script action → Prop
  | _, _, .done _ | _, _, .fail _ _ | _, _, .fresh _ | _, _, .rowBase _ | _, _, .instantiate _ => True
  | _, _, .lookup _ _ | _, _, .equate _ _ _ | _, _, .bindName _ _ _ => True
  | _, _, .forget | _, _, .takeSubst | _, _, .report _ | _, _, .getState => True
  | _, _, .declare _ _ => False
  | _, _, .andThen first rest => first.Contained ∧ ∀ value, (rest value).Contained
  | _, _, @choose _ _ _ _ _ ifYes ifNo => ifYes.Contained ∧ ifNo.Contained
  | _, _, .group inner => inner.Contained
  | _, _, .inScope _ => True
  | _, _, .node _ _ _ inner => inner.Contained

/-- The second state is at the place of the first: inside as many nodes and in the same scopes, of which only the
current one may have changed. -/
structure InferState.SamePlace (state after : InferState) : Prop where
  depth : after.depth = state.depth
  outer : after.env.outer = state.env.outer

/-- A run ends where it began, and with all names as they were if its script is contained. -/
structure Script.Returns {α : Type} {action : InferM α} (script : Script action) (state after : InferState) : Prop
    extends state.SamePlace after where
  inner : script.Contained → after.env.inner = state.env.inner

/-- A run of a contained script leaves all names as they were. -/
theorem Script.Returns.env {α : Type} {action : InferM α} {script : Script action} {state after : InferState}
    (returns : script.Returns state after) (contained : script.Contained) : after.env = state.env := by
  calc after.env = ⟨after.env.inner, after.env.outer⟩ := rfl
    _ = ⟨state.env.inner, state.env.outer⟩ := by rw [returns.inner contained, returns.outer]
    _ = state.env := rfl

/-- A step that does not touch the environment and the depth. -/
theorem Script.Returns.of_eq {α : Type} {action : InferM α} {script : Script action} {state after : InferState}
    (env : after.env = state.env) (depth : after.depth = state.depth) : script.Returns state after where
  depth := depth
  outer := by rw [env]
  inner _ := by rw [env]

/-- Every run ends where it began, also when it fails. -/
theorem Script.returns {α : Type} {action : InferM α} (script : Script action) (state : InferState) :
    script.Returns state (action state).2 := by
  induction script generalizing state with
  | done _ | fail _ _ | fresh _ | rowBase _ | instantiate _ | forget | takeSubst | report _ | getState =>
    exact .of_eq rfl rfl
  | lookup name span =>
    cases found : state.env.get? name with
    | none =>
      rw [InferM.lookup_run_of_none span found]
      exact .of_eq rfl rfl
    | some scheme =>
      rw [InferM.lookup_run_of_some span found]
      exact .of_eq rfl rfl
  | equate expected actual span =>
    rcases ran : unify (state.subst.apply expected) (state.subst.apply actual) state.supply with ⟨_ | found, supply⟩
    · rw [InferM.equate_run_of_error span ran]
      exact .of_eq rfl rfl
    · obtain ⟨events, run⟩ := InferM.equate_run_of_ok span ran
      rw [run]
      exact .of_eq rfl rfl
  | declare name scheme => exact ⟨⟨rfl, rfl⟩, fun contained => contained.elim⟩
  | bindName name type span =>
    rw [InferM.bindName_run]
    split <;> exact .of_eq rfl rfl
  | @andThen _ _ action next first rest ih ih' =>
    have before := ih state
    rw [bind_run]
    rcases ran : action state with ⟨_ | value, mid⟩
    · rw [ran] at before
      exact ⟨before.toSamePlace, fun contained => before.inner contained.1⟩
    · rw [ran] at before
      have behind := ih' value mid
      exact ⟨⟨behind.depth.trans before.depth, behind.outer.trans before.outer⟩,
        fun contained => (behind.inner (contained.2 value)).trans (before.inner contained.1)⟩
  | choose condition ifYes ifNo ih ih' =>
    split
    · exact ⟨(ih state).toSamePlace, fun contained => (ih state).inner contained.1⟩
    · exact ⟨(ih' state).toSamePlace, fun contained => (ih' state).inner contained.2⟩
  | @group _ action inner ih =>
    have inside := ih { state with bound := [] }
    rw [InferM.group_run]
    rcases ran : action { state with bound := [] } with ⟨_ | value, mid⟩
    · rw [ran] at inside
      exact ⟨⟨inside.depth, inside.outer⟩, inside.inner⟩
    · rw [ran] at inside
      exact ⟨⟨inside.depth, inside.outer⟩, inside.inner⟩
  | inScope inner ih =>
    -- The scope that is left is the one that was entered, whatever has been declared in it.
    have inside := ih { state with env := state.env.enter }
    exact .of_eq (Environment.exit_of_outer inside.outer) inside.depth
  | node typeOf limit span inner ih =>
    rw [InferM.nested_run]
    split
    · exact .of_eq rfl rfl
    · have inside := ih { state with depth := state.depth + 1 }
      refine ⟨⟨?_, inside.outer⟩, inside.inner⟩
      rw [inside.depth, Nat.add_sub_cancel]

/-! ## Patterns -/

namespace Pattern

theorem fieldsScript_contained (span : Span) (fields : List String) : (fieldsScript span fields).Contained := by
  induction fields with
  | nil => simp [fieldsScript]
  | cons field rest ih => simp [fieldsScript, ih]

mutual

/-- Patterns only collect the names they bind. -/
theorem script_contained (limit : Nat) : (pattern : Pattern Span) → (pattern.script limit).Contained
  | .unit _ | .wildcard _ | .var _ _ | .integer _ _ | .hex _ _ | .float _ _ | .string _ _ | .char _ _ => by
      simp [script]
  | .tuple _ first second => by simp [script, script_contained limit first, script_contained limit second]
  | .triple _ first second third => by
    simp [script, script_contained limit first, script_contained limit second, script_contained limit third]
  | .list _ items => by simp [script, itemsScript_contained limit items]
  | .cons _ head tail => by simp [script, script_contained limit head, script_contained limit tail]
  | .record span fields => by simp [script, fieldsScript_contained span fields]
  | .aliased _ inner _ | .parenthesized _ inner => by simp [script, script_contained limit inner]

theorem itemsScript_contained (limit : Nat) :
    (items : List (Pattern Span)) → (element : Ty) → (itemsScript limit element items).Contained
  | [], _ => by simp [itemsScript]
  | item :: rest, _ => by simp [itemsScript, script_contained limit item, itemsScript_contained limit rest]

end

end Pattern

/-! ## Expressions -/

namespace Expr

mutual

/-- Expressions declare parameters, local names and the names of branches in scopes of their own. -/
theorem script_contained (limit : Nat) : (expr : Expr Span) → (expr.script limit).Contained
  | .unit _ | .integer _ _ | .hex _ _ | .float _ _ | .string _ _ | .char _ _ | .var _ _ | .accessor _ _ | .operator _ _
  | .glsl _ _ => by simp [script]
  | .lambda _ _ _ | .letIn _ _ _ => by simp [script, functionScript]
  | .tuple _ first second => by simp [script, script_contained limit first, script_contained limit second]
  | .triple _ first second third => by
    simp [script, script_contained limit first, script_contained limit second, script_contained limit third]
  | .list _ items => by simp [script, itemsScript_contained limit items]
  | .record _ fields | .update _ _ fields => by simp [script, fieldsScript_contained limit fields]
  | .access _ inner _ | .parenthesized _ inner | .negate _ inner => by simp [script, script_contained limit inner]
  | .application _ function args => by simp [script, script_contained limit function, argsScript_contained limit args]
  | .operation _ _ left right => by
    simp [script, argScript, script_contained limit left, script_contained limit right]
  | .conditional _ condition thenBranch elseBranch => by
    simp [script, script_contained limit condition, script_contained limit thenBranch,
      script_contained limit elseBranch]
  | .caseOf _ subject branches => by
    simp [script, script_contained limit subject, branchesScript_contained limit branches]

theorem argsScript_contained (limit : Nat) :
    (args : List (Expr Span)) → (function : Ty) → (argsScript limit function args).Contained
  | [], _ => by simp [argsScript]
  | arg :: rest, _ => by simp [argsScript, argScript, script_contained limit arg, argsScript_contained limit rest]

theorem itemsScript_contained (limit : Nat) :
    (items : List (Expr Span)) → (element : Ty) → (itemsScript limit element items).Contained
  | [], _ => by simp [itemsScript]
  | item :: rest, _ => by simp [itemsScript, script_contained limit item, itemsScript_contained limit rest]

theorem fieldsScript_contained (limit : Nat) : (fields : List (Field Span)) → (fieldsScript limit fields).Contained
  | [] => by simp [fieldsScript]
  | .mk _ value :: rest => by simp [fieldsScript, script_contained limit value, fieldsScript_contained limit rest]

theorem branchesScript_contained (limit : Nat) :
    (branches : List (Branch Span)) → (subject result : Ty) → (branchesScript limit subject result branches).Contained
  | [], _, _ => by simp [branchesScript]
  | .mk _ _ :: rest, _, _ => by simp [branchesScript, branchScript, branchesScript_contained limit rest]

end

end Expr

/-! ## Declarations -/

/-- The inference of parameters and body leaves no name in the scope of the declaration. -/
theorem Declaration.bodyScript_contained (limit : Nat) (self : Ty) (declaration : Declaration Span) :
    (bodyScript limit self declaration).Contained := by
  simp [bodyScript]

/-- The parameters and the body are inferred in a scope of their own, and only when that has succeeded the name is
declared. -/
theorem Declaration.infer_env (limit : Nat) (declaration : Declaration Span) (state : InferState) :
    match declaration.infer limit state with
      | (.error _, after) => after.env = state.env ∧ after.depth = state.depth
      | (.ok typed, after) =>
        after.env = state.env.add declaration.name typed.info.scheme ∧ after.depth = state.depth := by
  have returns := (bodyScript limit state.self declaration).returns state.started
  have env := returns.env (bodyScript_contained limit state.self declaration)
  have depth := returns.depth
  rw [infer_run]
  rcases ran : inferBody limit state.self declaration state.started with ⟨_ | ⟨params, body⟩, mid⟩
  · rw [ran] at env depth
    exact ⟨env, depth⟩
  · rw [ran] at env depth
    exact ⟨congrArg (Environment.add · declaration.name _) env, depth⟩

/-- Inference restores scopes and depth, on success and on failure. Expressions and patterns leave the environment and
the depth as they were, and so does a declaration that fails; one that succeeds binds its name in the current scope and
changes no other binding. -/
theorem infer_restores (limit : Nat) (state : InferState) :
    (∀ expr : Expr Span,
      (expr.infer limit state).2.env = state.env ∧ (expr.infer limit state).2.depth = state.depth) ∧
    (∀ pattern : Pattern Span,
      (pattern.infer limit state).2.env = state.env ∧ (pattern.infer limit state).2.depth = state.depth) ∧
    ∀ declaration : Declaration Span, match declaration.infer limit state with
      | (.error _, after) => after.env = state.env ∧ after.depth = state.depth
      | (.ok typed, after) =>
        after.depth = state.depth ∧ after.env.outer = state.env.outer ∧
          after.env.inner[declaration.name]? = some typed.info.scheme ∧
          ∀ name, name ≠ declaration.name → after.env.inner[name]? = state.env.inner[name]? := by
  refine ⟨?_, ?_, ?_⟩
  · intro expr
    have returns := (expr.script limit).returns state
    exact ⟨returns.env (Expr.script_contained limit expr), returns.depth⟩
  · intro pattern
    have returns := (pattern.script limit).returns state
    exact ⟨returns.env (Pattern.script_contained limit pattern), returns.depth⟩
  · intro declaration
    have restored := declaration.infer_env limit state
    rcases ran : declaration.infer limit state with ⟨_ | typed, after⟩
    · rw [ran] at restored
      exact restored
    · rw [ran] at restored
      obtain ⟨env, depth⟩ := restored
      refine ⟨depth, ?_, ?_, ?_⟩
      · rw [env]
        rfl
      · rw [env]
        simp [Environment.add]
      · intro name other
        rw [env]
        simp [Environment.add, Std.ExtTreeMap.getElem?_insert, Ne.symm other]

end RowInference
