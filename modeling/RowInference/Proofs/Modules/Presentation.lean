import RowInference.Proofs.Inference.Recasting
import RowInference.Proofs.Modules.Checking

/-! # How a program is presented

The limit on nesting decides which trees are too high, and nothing else. Below it, what is inferred does not depend on
the style in which a tree is written: not on parentheses, and not on whether it is written in core forms.
-/

namespace RowInference

namespace Checker

/-! ## The limit on nesting -/

/-- The result of a call is a refusal to go deeper. -/
def Refused {α : Type} (result : Except Error α) : Prop := ∃ limit span, result = .error (.type ⟨.tooDeep limit, span⟩)

/-- A call is refused just if its inference is. -/
theorem refused_mapError {α : Type} {result : Except TypeError α} :
    Refused (result.mapError Error.type) ↔ TooDeep result := by
  rcases result with ⟨fault, span⟩ | value
  · constructor
    · rintro ⟨limit, _, same⟩
      cases same
      exact ⟨limit, rfl⟩
    · rintro ⟨limit, rfl⟩
      exact ⟨limit, span, rfl⟩
  · constructor
    · rintro ⟨_, _, ⟨⟩⟩
    · exact False.elim

/-- The limit on nesting refuses just the trees that are too high. An expression that is not higher than the limit is
never refused for its nesting, one that is higher is never accepted, and unless it is refused every larger limit gives
the same result and issues the same variables. The same holds for a declaration, from every state outside of all
nodes. -/
theorem nesting_exact (checker : Checker) (expr : Expr Span) :
    ((expr.height ≤ checker.limit → ¬Refused (checkExpr expr checker).1) ∧
      (checker.limit < expr.height → ∀ typed, (checkExpr expr checker).1 ≠ .ok typed) ∧
      ∀ larger, checker.limit ≤ larger → ¬Refused (checkExpr expr checker).1 →
        checkExpr expr { checker with limit := larger }
          = ((checkExpr expr checker).1, { (checkExpr expr checker).2 with limit := larger })) ∧
    ∀ (limit : Nat) (declaration : Declaration Span) (state : InferState), state.depth = 0 →
      (declaration.height ≤ limit → ¬TooDeep (declaration.infer limit state).1) ∧
      (limit < declaration.height → ∀ typed, (declaration.infer limit state).1 ≠ .ok typed) ∧
      ∀ larger, limit ≤ larger → ¬TooDeep (declaration.infer limit state).1 →
        declaration.infer larger state = declaration.infer limit state := by
  have guarded {larger : Nat} (le : checker.limit ≤ larger) := expr.inferClosed_guarded le
  refine ⟨⟨?_, ?_, ?_⟩, fun limit declaration state outermost => ⟨?_, ?_, ?_⟩⟩
  · intro low
    rw [checkExpr, CheckM.infer_run, refused_mapError]
    exact (guarded le_rfl).fits _ (by simpa [start] using low)
  · intro high typed
    rw [checkExpr, CheckM.infer_run]
    have refuses := (guarded le_rfl).refuses (checker.start Prelude.environment) (Nat.zero_le _)
      (by simpa [start] using high)
    rcases ran : (expr.inferClosed checker.limit (checker.start Prelude.environment)).1 with error | value
    · rintro ⟨⟩
    · exact absurd ran (refuses value)
  · intro larger le notRefused
    rw [checkExpr, CheckM.infer_run, refused_mapError] at notRefused
    have same := (guarded le).stable (checker.start Prelude.environment) notRefused
    have sameStart : ({ checker with limit := larger } : Checker).start Prelude.environment
        = checker.start Prelude.environment := rfl
    rw [checkExpr, CheckM.infer_run, CheckM.infer_run, sameStart, same]
  · intro low
    exact (declaration.infer_guarded le_rfl).fits state (by omega)
  · intro high
    exact (declaration.infer_guarded le_rfl).refuses state (by omega) (by omega)
  · intro larger le notDeep
    exact (declaration.infer_guarded le).stable state notDeep

/-- A let expression of height three: a parameter in parentheses, and a case expression as the body of a function. -/
def wrapped : Expr Span :=
  .letIn {}
    [.function "f" [.parenthesized {} (.var {} "x")] (.caseOf {} (.var {} "x") [.mk (.wildcard {}) (.var {} "x")])]
    (.var {} "f")

theorem nesting_exact_wrapped : wrapped.height = 3 ∧ ¬Refused (checkExpr wrapped { limit := 3 }).1 ∧
    (∀ typed, (checkExpr wrapped { limit := 2 }).1 ≠ .ok typed) ∧
    ¬TooDeep (({ name := "g", body := wrapped, info := {} } : Declaration Span).infer 3 {}).1 ∧
    ∀ typed, (({ name := "g", body := wrapped, info := {} } : Declaration Span).infer 2 {}).1 ≠ .ok typed := by
  let declaration : Declaration Span := { name := "g", body := wrapped, info := {} }
  have high : wrapped.height = 3 := rfl
  have high' : declaration.height = 3 := rfl
  have three := nesting_exact { limit := 3 } wrapped
  have two := nesting_exact { limit := 2 } wrapped
  exact ⟨high, three.1.1 high.le, two.1.2.1 (by simp [high]), (three.2 3 declaration {} rfl).1 high'.le,
    (two.2 2 declaration {} rfl).2.1 (by simp [high'])⟩

/-! ## Styles -/

/-- Two calls that infer an expression end alike. Either way they have issued as many variables. -/
inductive EndAlike : Except Error (Expr Typed) × Checker → Except Error (Expr Typed) × Checker → Prop
  | succeed {typed typed' : Expr Typed} {after after' : Checker} (type : typed.type = typed'.type)
      (supply : after.supply = after'.supply) : EndAlike (.ok typed, after) (.ok typed', after')
  | fail (fault : Fault) (span span' : Span) {after after' : Checker} (supply : after.supply = after'.supply) :
      EndAlike (.error (.type ⟨fault, span⟩), after) (.error (.type ⟨fault, span'⟩), after')

/-- Expressions that are inferred alike end alike, if neither of them is too high. -/
theorem endAlike_of_alike {checker : Checker} {expr other : Expr Span} (alike : expr.Alike checker.limit other)
    (low : expr.height ≤ checker.limit) (low' : other.height ≤ checker.limit) :
    EndAlike (checkExpr expr checker) (checkExpr other checker) := by
  let state := checker.start Prelude.environment
  have step := alike state state ⟨fun _ _ => rfl, rfl, rfl, rfl, fun _ => rfl⟩
  have fits := (expr.infer_guarded le_rfl).fits state (by simpa [state, start] using low)
  have fits' := (other.infer_guarded le_rfl).fits state (by simpa [state, start] using low')
  have resolved {typed : Expr Typed} {mid : InferState} (ran : expr.infer checker.limit state = (.ok typed, mid)) :=
    Expr.type_resolve ran mid.subst
  have resolved' {typed : Expr Typed} {mid : InferState} (ran : other.infer checker.limit state = (.ok typed, mid)) :=
    Expr.type_resolve ran mid.subst
  rw [checkExpr_run, checkExpr_run]
  generalize expr.infer checker.limit state = run, other.infer checker.limit state = run' at *
  cases step with
  | returns sameType beside =>
    refine .succeed ?_ beside.supply.symm
    rw [resolved rfl, resolved' rfl, beside.subst, sameType]
  | fails fault _ supply => exact .fail fault _ _ supply.symm
  | refused _ deep => exact absurd deep (not_or.mpr ⟨fits, fits'⟩)

/-- Parentheses are transparent. An expression that is not too high, and the same expression with every node in
parentheses at any depth replaced by its content, also in patterns, have the same type with the same variables, or fail
with the same error but for its place. Either way they issue as many variables. -/
theorem parentheses_transparent (checker : Checker) (expr : Expr Span) (low : expr.height ≤ checker.limit) :
    EndAlike (checkExpr expr checker) (checkExpr expr.unparenthesized checker) :=
  endAlike_of_alike (expr.alike_recast (Style.bare_sound checker.limit)) low (expr.height_unparenthesized_le.trans low)

/-- The identity, with parentheses around the whole, the parameter and the body. -/
def bracketed : Expr Span :=
  .parenthesized {} (.lambda {} [.parenthesized {} (.var {} "x")] (.parenthesized {} (.var {} "x")))

theorem parentheses_transparent_bracketed : bracketed.height ≤ 4 ∧
    bracketed.unparenthesized = .lambda {} [.var {} "x"] (.var {} "x") ∧
    EndAlike (checkExpr bracketed { limit := 4 }) (checkExpr bracketed.unparenthesized { limit := 4 }) :=
  ⟨by decide, rfl, parentheses_transparent { limit := 4 } bracketed (by decide)⟩

end Checker

/-- Two inferences of a declaration end alike. Either way they have issued as many variables. -/
inductive Declaration.EndAlike :
    Except TypeError (Declaration Typed) × InferState → Except TypeError (Declaration Typed) × InferState → Prop
  | succeed {typed typed' : Declaration Typed} {after after' : InferState}
      (scheme : typed.info.scheme = typed'.info.scheme) (supply : after.supply = after'.supply) :
      EndAlike (.ok typed, after) (.ok typed', after')
  | fail (fault : Fault) (span span' : Span) {after after' : InferState} (supply : after.supply = after'.supply) :
      EndAlike (.error ⟨fault, span⟩, after) (.error ⟨fault, span'⟩, after')

/-- A declaration that is written in a sound style ends alike, if it is not too high in either style. -/
theorem Declaration.endAlike_recast {limit : Nat} {style : Style Span} (sound : style.Sound limit)
    {declaration : Declaration Span} (low : declaration.height ≤ limit)
    (low' : (declaration.recast style).height ≤ limit) {state : InferState} (outermost : state.depth = 0) :
    EndAlike (declaration.infer limit state) ((declaration.recast style).infer limit state) := by
  have step := inferBody_recast sound state.self declaration state.started state.started
    ⟨fun _ _ => rfl, rfl, rfl, rfl, fun _ => rfl⟩
  have fits := (inferBody_guarded le_rfl state.self declaration).fits state.started
    (by simpa [InferState.started, outermost] using low)
  have fits' := (inferBody_guarded le_rfl state.self (declaration.recast style)).fits state.started
    (by simpa [InferState.started, outermost] using low')
  have env := ((bodyScript limit state.self declaration).returns state.started).env (bodyScript_contained ..)
  have env' := ((bodyScript limit state.self (declaration.recast style)).returns state.started).env
    (bodyScript_contained ..)
  rw [infer_run, infer_run]
  generalize inferBody limit state.self declaration state.started = run,
    inferBody limit state.self (declaration.recast style) state.started = run' at *
  cases step with
  | returns _ beside =>
    refine .succeed ?_ beside.supply.symm
    dsimp only at env env' ⊢
    rw [env, env', beside.subst]
  | fails fault _ supply => exact .fail fault _ _ supply.symm
  | refused _ deep => exact absurd deep (not_or.mpr ⟨fits, fits'⟩)

namespace Checker

/-- Surface forms agree with their core forms, in which operators are applied as functions, functions are applied to one
argument at a time, and functions with names have lambdas for their parameters. If neither form of an expression is too
high, they have the same type with the same variables, or fail with the same error but for its place, and issue as many
variables. The same holds for the schemes of declarations, from every state outside of all nodes. -/
theorem core_agrees (checker : Checker) (expr : Expr Span) :
    (expr.height ≤ checker.limit → expr.core.height ≤ checker.limit →
      EndAlike (checkExpr expr checker) (checkExpr expr.core checker)) ∧
    ∀ (limit : Nat) (declaration : Declaration Span) (state : InferState), state.depth = 0 →
      declaration.height ≤ limit → declaration.core.height ≤ limit →
        Declaration.EndAlike (declaration.infer limit state) (declaration.core.infer limit state) := by
  refine ⟨fun low low' => ?_, fun limit declaration state outermost low low' => ?_⟩
  · exact endAlike_of_alike (expr.alike_recast (Style.core_sound checker.limit)) low low'
  · exact Declaration.endAlike_recast (Style.core_sound limit) low low' outermost

/-- The declaration `add x y = x + y`. -/
def adding : Declaration Span where
  name := "add"
  params := [.var {} "x", .var {} "y"]
  body := .operation {} .add (.var {} "x") (.var {} "y")
  info := {}

/-- The expression `let add x y = x + y in add 1 2`. -/
def added : Expr Span :=
  .letIn {} [.function adding.name adding.params adding.body]
    (.application {} (.var {} "add") [.integer {} 1, .integer {} 2])

theorem core_agrees_added : added.height ≤ 5 ∧ added.core.height ≤ 5 ∧
    EndAlike (checkExpr added { limit := 5 }) (checkExpr added.core { limit := 5 }) ∧
    adding.height ≤ 5 ∧ adding.core.height ≤ 5 ∧ Declaration.EndAlike (adding.infer 5 {}) (adding.core.infer 5 {}) := by
  have low : added.height ≤ 5 := by decide
  have low' : added.core.height ≤ 5 := by decide
  have agrees := core_agrees { limit := 5 } added
  exact ⟨low, low', agrees.1 low low', by decide, by decide, agrees.2 5 adding {} rfl (by decide) (by decide)⟩

end Checker

end RowInference
