import RowInference.Engine
import RowInference.Proofs.Inference.Lockstep
import RowInference.Proofs.Modules.Locality

/-! # Expressions on their own and as declarations

An expression can be inferred on its own, or as the right-hand side of a declaration. The declaration issues a variable
for its name before the expression is inferred, keeps the name in scope and equates the variable at the end. If the
expression does not refer to the name, all this makes no difference but for the numbers of variables.
-/

namespace RowInference

variable {ι : Type} {limit : Nat} {name : String}

/-! ## References -/

namespace Expr

mutual

/-- The names that are used as variables or as records to be updated, with repetitions. -/
def references : Expr ι → List String
  | .var _ name => [name]
  | .update _ name updates => name :: fieldReferences updates
  | .tuple _ first second => first.references ++ second.references
  | .triple _ first second third => first.references ++ (second.references ++ third.references)
  | .list _ items => itemReferences items
  | .lambda _ _ body => body.references
  | .record _ fields => fieldReferences fields
  | .access _ subject _ => subject.references
  | .parenthesized _ inner => inner.references
  | .application _ function args => function.references ++ itemReferences args
  | .operation _ _ left right => left.references ++ right.references
  | .negate _ inner => inner.references
  | .conditional _ condition thenBranch elseBranch =>
    condition.references ++ (thenBranch.references ++ elseBranch.references)
  | .letIn _ bindings body => bindingReferences bindings ++ body.references
  | .caseOf _ subject branches => subject.references ++ branchReferences branches
  | .unit _ | .integer .. | .hex .. | .float .. | .string .. | .char .. | .accessor .. | .operator .. | .glsl .. => []

def itemReferences : List (Expr ι) → List String
  | [] => []
  | item :: rest => item.references ++ itemReferences rest

def fieldReferences : List (Field ι) → List String
  | [] => []
  | .mk _ value :: rest => value.references ++ fieldReferences rest

def branchReferences : List (Branch ι) → List String
  | [] => []
  | .mk _ body :: rest => body.references ++ branchReferences rest

def bindingReferences : List (Binding ι) → List String
  | [] => []
  | .function _ _ body :: rest => body.references ++ bindingReferences rest
  | .destructuring _ body :: rest => body.references ++ bindingReferences rest

end

end Expr

theorem declareAllScript_avoids {hidden : String → Prop} (names : List (String × Ty)) :
    (declareAllScript names).Avoids hidden := by
  induction names with
  | nil => simp [declareAllScript]
  | cons entry rest ih => simp [declareAllScript, ih]

namespace Expr

variable {hidden : String → Prop}

@[simp] theorem paramsScript_avoids (params : List (Pattern Span)) : (paramsScript limit params).Avoids hidden := by
  have patterns : ∀ params : List (Pattern Span), (Pattern.allScript limit params).Avoids hidden := by
    intro params
    induction params with
    | nil => simp [Pattern.allScript]
    | cons pattern rest ih => simp [Pattern.allScript, Pattern.script_avoids, ih]
  simp [paramsScript, patterns, declareAllScript_avoids]

theorem takeNamesScript_avoids (span : Span) (seen : List String) (names : List (String × Ty)) :
    (takeNamesScript span seen names).Avoids hidden := by
  induction names generalizing seen with
  | nil => simp [takeNamesScript]
  | cons entry rest ih => simp [takeNamesScript, ih]

mutual

/-- An expression looks up the names it refers to, and no others. -/
theorem script_avoids : (expr : Expr Span) → name ∉ expr.references → (expr.script limit).Avoids (· = name)
  | .unit _, _ | .integer _ _, _ | .hex _ _, _ | .float _ _, _ | .string _ _, _ | .char _ _, _ | .accessor _ _, _
  | .operator _ _, _ | .glsl _ _, _ => by simp [script]
  | .var _ _, absent => by
    simp only [references, List.mem_singleton] at absent
    simp [script, Ne.symm absent]
  | .tuple _ first second, absent => by
    simp only [references, List.mem_append, not_or] at absent
    simp [script, script_avoids first absent.1, script_avoids second absent.2]
  | .triple _ first second third, absent => by
    simp only [references, List.mem_append, not_or] at absent
    simp [script, script_avoids first absent.1, script_avoids second absent.2.1, script_avoids third absent.2.2]
  | .list _ items, absent => by simp [script, itemsScript_avoids items absent]
  | .lambda _ _ body, absent => by simp [script, functionScript, script_avoids body absent]
  | .record _ fields, absent => by simp [script, fieldsScript_avoids fields absent]
  | .access _ inner _, absent | .parenthesized _ inner, absent | .negate _ inner, absent => by
    simp [script, script_avoids inner absent]
  | .update _ _ updates, absent => by
    simp only [references, List.mem_cons, not_or] at absent
    simp [script, Ne.symm absent.1, fieldsScript_avoids updates absent.2]
  | .application _ function args, absent => by
    simp only [references, List.mem_append, not_or] at absent
    simp [script, script_avoids function absent.1, argsScript_avoids args absent.2]
  | .operation _ _ left right, absent => by
    simp only [references, List.mem_append, not_or] at absent
    simp [script, argScript, script_avoids left absent.1, script_avoids right absent.2]
  | .conditional _ condition thenBranch elseBranch, absent => by
    simp only [references, List.mem_append, not_or] at absent
    simp [script, script_avoids condition absent.1, script_avoids thenBranch absent.2.1,
      script_avoids elseBranch absent.2.2]
  | .letIn _ bindings body, absent => by
    simp only [references, List.mem_append, not_or] at absent
    simp [script, bindingsScript_avoids bindings absent.1, script_avoids body absent.2]
  | .caseOf _ subject branches, absent => by
    simp only [references, List.mem_append, not_or] at absent
    simp [script, script_avoids subject absent.1, branchesScript_avoids branches absent.2]

theorem argsScript_avoids : (args : List (Expr Span)) → name ∉ itemReferences args → ∀ function : Ty,
    (argsScript limit function args).Avoids (· = name)
  | [], _, _ => by simp [argsScript]
  | arg :: rest, absent, _ => by
    simp only [itemReferences, List.mem_append, not_or] at absent
    simp [argsScript, argScript, script_avoids arg absent.1, argsScript_avoids rest absent.2]

theorem itemsScript_avoids : (items : List (Expr Span)) → name ∉ itemReferences items → ∀ element : Ty,
    (itemsScript limit element items).Avoids (· = name)
  | [], _, _ => by simp [itemsScript]
  | item :: rest, absent, _ => by
    simp only [itemReferences, List.mem_append, not_or] at absent
    simp [itemsScript, script_avoids item absent.1, itemsScript_avoids rest absent.2]

theorem fieldsScript_avoids : (fields : List (Field Span)) → name ∉ fieldReferences fields →
    (fieldsScript limit fields).Avoids (· = name)
  | [], _ => by simp [fieldsScript]
  | .mk _ value :: rest, absent => by
    simp only [fieldReferences, List.mem_append, not_or] at absent
    simp [fieldsScript, script_avoids value absent.1, fieldsScript_avoids rest absent.2]

theorem branchesScript_avoids : (branches : List (Branch Span)) → name ∉ branchReferences branches →
    ∀ subject result : Ty, (branchesScript limit subject result branches).Avoids (· = name)
  | [], _, _, _ => by simp [branchesScript]
  | .mk pattern body :: rest, absent, _, _ => by
    simp only [branchReferences, List.mem_append, not_or] at absent
    simp [branchesScript, branchScript, Pattern.script_avoids, declareAllScript_avoids, script_avoids body absent.1,
      branchesScript_avoids rest absent.2]

theorem bindingsScript_avoids : (bindings : List (Binding Span)) → name ∉ bindingReferences bindings →
    ∀ seen : List String, (bindingsScript limit seen bindings).Avoids (· = name)
  | [], _, _ => by simp [bindingsScript]
  | .function _ _ body :: rest, absent, _ => by
    simp only [bindingReferences, List.mem_append, not_or] at absent
    simp [bindingsScript, localScript, functionScript, script_avoids body absent.1, bindingsScript_avoids rest absent.2]
  | .destructuring pattern body :: rest, absent, _ => by
    simp only [bindingReferences, List.mem_append, not_or] at absent
    simp [bindingsScript, Pattern.script_avoids, declareAllScript_avoids, takeNamesScript_avoids,
      script_avoids body absent.1, bindingsScript_avoids rest absent.2]

end

end Expr

/-! ## Binding a new variable -/

/-- A variable that does not occur in a type is bound to it. -/
theorem unify_new {v : TypeVar} (plain : v.constraint = none) {type : Ty} (absent : type.occurs v.id = false)
    (supply : Supply) : unify (.var v) type supply = (.ok (Substitution.singleton v type), supply) := by
  have bound : bindVar v type ⟨.var v, type⟩ = .ok (Substitution.singleton v type) := by
    rw [bindVar, absent, plain]
    rfl
  have boundVar (u : TypeVar) (isVar : type = .var u) : unifyVars v u = .ok (Substitution.singleton v type) := by
    subst isVar
    have different : v.id ≠ u.id := fun same => by simp [Ty.occurs, same] at absent
    rw [unifyVars, if_neg different, plain]
  cases type
  case var u =>
    rw [unify, unifyWithin, boundVar u rfl]
    rfl
  all_goals
    rw [unify, unifyWithin, bound]
    · rfl
    · rintro _ ⟨⟩

/-- A variable that has just been bound resolves to its type. -/
theorem Substitution.apply_extend_new {subst : Substitution} {v : TypeVar} (unbound : subst[v.id]? = none) {type : Ty}
    (flat : type.Flat) (resolved : ∀ u ∈ type.occurrences, subst[u.id]? = none) :
    (subst.extend (singleton v type)).apply (.var v) = type := by
  have isBound : (subst.extend (singleton v type))[v.id]? = some type := by
    rw [getElem?_extend, unbound, getElem?_singleton, if_pos rfl]
    rfl
  have rest : Std.ExtTreeMap.erase (subst.extend (singleton v type)) v.id = subst := by
    apply Std.ExtTreeMap.ext_getElem?
    intro id
    by_cases isVar : v.id = id
    · subst isVar
      simp [unbound]
    · rw [getElem?_erase_of_ne isVar, getElem?_extend, getElem?_singleton, if_neg isVar, Option.or_none]
  rw [apply_var_eq_resolve, resolve_var_of_some isBound, rest, resolve_eq_mapVars]
  exact Ty.mapVars_eq_self flat fun u inType => resolve_var_of_none (resolved u inType)

/-- A new variable that is equated with a type resolves to it. -/
theorem InferM.equate_new {v : TypeVar} (plain : v.constraint = none) {type : Ty} {state : InferState}
    (unbound : state.subst[v.id]? = none) (flat : (state.subst.apply type).Flat)
    (resolved : ∀ u ∈ (state.subst.apply type).occurrences, state.subst[u.id]? = none)
    (absent : (state.subst.apply type).occurs v.id = false) (span : Span) :
    ∃ subst events, equate (.var v) type span state = (.ok (), { state with subst, events }) ∧
      subst.apply (.var v) = state.subst.apply type := by
  have unified : unify (state.subst.apply (.var v)) (state.subst.apply type) state.supply
      = (.ok (Substitution.singleton v (state.subst.apply type)), state.supply) := by
    rw [show state.subst.apply (.var v) = .var v from Substitution.value_of_none unbound]
    exact unify_new plain absent state.supply
  obtain ⟨events, run⟩ := equate_run_of_ok span unified
  exact ⟨_, events, run, Substitution.apply_extend_new unbound flat resolved⟩

/-! ## Runs in the prelude -/

/-- What has been learnt leaves nothing to do in the type of an inferred expression. -/
theorem Expr.resolved_of_infer {expr : Expr Span} {typed : Expr Typed} (state : InferState) {mid : InferState}
    (closed : state.env.All (Scheme.Closed state.supply.issued))
    (ran : expr.infer limit { state with subst := {} } = (.ok typed, mid)) :
    (mid.subst.apply typed.type).Flat ∧
      ∀ u ∈ (mid.subst.apply typed.type).occurrences, mid.subst[u.id]? = none := by
  obtain ⟨last, run⟩ := Script.Safe.sound (expr.script limit)
    (script_walks limit expr fun _ _ _ _ _ fine => fine) (Knowledge.start closed)
  obtain ⟨sound, learnt, fine, _⟩ := Knowledge.of_run run ran
  have within := (fine _ typed.info_mem_infos).2
  rw [learnt]
  exact ⟨Substitution.apply_flat within.flat, fun u inType => Substitution.unbound_of_mem_apply sound.acyclic inType⟩

/-- In the prelude, before any variable has been issued. -/
def InferState.prelude : InferState := { env := Prelude.environment }

/-- The prelude with a later supply is the prelude shifted. -/
theorem InferState.prelude_shifted (supply : Supply) (events : List Event) :
    InferState.prelude.Shifted supply.issued { env := Prelude.environment, supply, events } where
  env := Prelude.environment_alike.imp fun _ _ alike => alike.shifted
  subst := Substitution.shift_empty.symm
  supply := by simp [InferState.prelude, Supply.shift]
  depth := rfl
  bound := rfl

section Prelude

variable {expr : Expr Span} {mid : InferState} {typed : Expr Typed} {error : TypeError}

/-- Other variables are issued for an expression in the prelude, but it fails in the same way. -/
theorem Expr.infer_error_of_prelude (ran : expr.infer limit .prelude = (.error error, mid)) (supply : Supply)
    (events : List Event) :
    ∃ after, expr.infer limit { env := Prelude.environment, supply, events }
      = (.error (error.shift supply.issued), after) := by
  rcases expr.infer_shifts limit _ _ (InferState.prelude_shifted supply events) with
    ⟨_, _, _, after, run, run', rfl⟩ | ⟨_, _, _, _, run, _⟩
  · obtain ⟨⟨⟩, -⟩ := Prod.mk.inj (ran.symm.trans run)
    exact ⟨after, run'⟩
  · cases ran.symm.trans run

/-- An inference that succeeds from the first variable on succeeds from every later one. -/
theorem Expr.infer_ok_of_prelude (ran : expr.infer limit .prelude = (.ok typed, mid)) (supply : Supply)
    (events : List Event) :
    ∃ after, expr.infer limit { env := Prelude.environment, supply, events }
        = (.ok (typed.shift supply.issued), after) ∧
      after.subst = mid.subst.shift supply.issued := by
  rcases expr.infer_shifts limit _ _ (InferState.prelude_shifted supply events) with
    ⟨_, _, _, _, run, _⟩ | ⟨_, _, _, after, run, run', rfl, shifted⟩
  · cases ran.symm.trans run
  · cases ran.symm.trans run
    exact ⟨after, run', shifted.subst⟩

/-- The state in the scope of a declaration, where its name has a scheme. -/
def InferState.declaring (state : InferState) (name : String) (scheme : Scheme) : InferState :=
  { state with env := state.env.enter.add name scheme, bound := [] }

/-- What a name means has no effect on an expression that does not refer to it. -/
theorem Expr.infer_declaring (absent : name ∉ expr.references) (scheme : Scheme) {state after : InferState}
    (noneBound : state.bound = []) {result : Except TypeError (Expr Typed)}
    (ran : expr.infer limit state = (result, after)) :
    ∃ after', expr.infer limit (state.declaring name scheme) = (result, after') ∧
      (result.isOk = true → after'.subst = after.subst) := by
  have beside : state.Beside False (· = name) (state.declaring name scheme) := by
    refine ⟨fun other different => ?_, rfl, rfl, noneBound.symm, fun _ => rfl⟩
    rw [InferState.declaring, Environment.get?_add, if_neg different, Environment.get?_enter]
  have step := (expr.script limit).lockstep (script_avoids expr absent) _ _ beside
  rw [ran] at step
  generalize expr.infer limit (state.declaring name scheme) = run at step ⊢
  cases step with
  | returns isSame beside =>
    subst isSame
    exact ⟨_, rfl, fun _ => beside.subst⟩
  | fails fault placed =>
    rw [placed not_false]
    exact ⟨_, rfl, by rintro ⟨⟩⟩
  | refused isLax => exact isLax.elim

namespace Declaration

/-- A declaration without parameters is inferred by its body. -/
theorem inferBody_value (limit : Nat) (name : String) (self : Ty) (body : Expr Span) (place : Span)
    (state : InferState) :
    inferBody limit self { name, body, info := place } state =
      match body.infer limit (state.declaring name (Scheme.mono self)) with
      | (.ok typed, mid) =>
        match InferM.equate self typed.type place mid with
        | (.ok _, last) => (.ok ([], typed), { last with env := last.env.exit })
        | (.error error, last) => (.error error, { last with env := last.env.exit })
      | (.error error, mid) => (.error error, { mid with env := mid.env.exit }) := by
  have inside : (do
        InferM.declare name (Scheme.mono self)
        let params ← Expr.inferParams limit []
        let body ← body.infer limit
        InferM.equate self (functionType params body) place
        return (params, body) : InferM (List (Pattern Typed) × Expr Typed)) { state with env := state.env.enter }
      = (body.infer limit >>= fun body => InferM.equate self body.type place >>= fun _ => pure ([], body))
        (state.declaring name (Scheme.mono self)) := rfl
  rw [inferBody, InferM.inScope_run, inside, bind_run]
  rcases body.infer limit _ with ⟨_ | typed, mid⟩
  · rfl
  · dsimp only
    rw [bind_run]
    rcases InferM.equate self typed.type place mid with ⟨_ | _, last⟩ <;> rfl

/-- A declaration whose right-hand side does not refer to it fails as that does in the prelude. -/
theorem infer_error_of_prelude (absent : name ∉ expr.references)
    (ran : expr.infer limit .prelude = (.error error, mid)) (place : Span) (supply : Supply) (events : List Event) :
    ∃ after, infer limit { name, body := expr, info := place } { env := Prelude.environment, supply, events }
      = (.error (error.shift (supply.issued + 1)), after) := by
  let state : InferState := { env := Prelude.environment, supply, events }
  obtain ⟨_, run⟩ : ∃ after, expr.infer limit state.started = (.error (error.shift (supply.issued + 1)), after) :=
    Expr.infer_error_of_prelude ran _ events
  obtain ⟨_, inScope, -⟩ := Expr.infer_declaring absent (Scheme.mono state.self) rfl run
  have infers := infer_run limit { name, body := expr, info := place } state
  rw [inferBody_value, inScope] at infers
  exact ⟨_, infers⟩

/-- Such a declaration gets the closed scheme of the type that its right-hand side has in the prelude, but for the
variables that are issued. -/
theorem infer_ok_of_prelude (absent : name ∉ expr.references) (ran : expr.infer limit .prelude = (.ok typed, mid))
    (place : Span) (supply : Supply) (events : List Event) :
    ∃ result after, infer limit { name, body := expr, info := place } { env := Prelude.environment, supply, events }
        = (.ok result, after) ∧
      result.name = name ∧
      result.info.scheme = Scheme.closed ((mid.subst.apply typed.type).shift (supply.issued + 1)) := by
  let state : InferState := { env := Prelude.environment, supply, events }
  let self : TypeVar := ⟨.generated supply.issued, none⟩
  have new : self.id.unshift (supply.issued + 1) = none := by simp [self, VarId.unshift]
  obtain ⟨_, run, learnt⟩ : ∃ after, expr.infer limit state.started = (.ok (typed.shift (supply.issued + 1)), after) ∧
      after.subst = mid.subst.shift (supply.issued + 1) := Expr.infer_ok_of_prelude ran _ events
  obtain ⟨last, inScope, same⟩ := Expr.infer_declaring absent (Scheme.mono state.self) rfl run
  have type : last.subst.apply (typed.shift (supply.issued + 1)).type
      = (mid.subst.apply typed.type).shift (supply.issued + 1) := by
    rw [same rfl, learnt, Expr.type_shift, Substitution.shift_apply]
  -- The variable of the declaration is older than all those of its right-hand side.
  have unbound : last.subst[self.id]? = none := by
    rw [same rfl, learnt, Substitution.getElem?_shift, new, Option.bind_none]
  have notIn : (last.subst.apply (typed.shift (supply.issued + 1)).type).occurs self.id = false := by
    rw [type, Ty.occurs_shift_eq_false new]
  have closed (issued : Nat) : Prelude.environment.All (Scheme.Closed issued) := soundness.prelude issued
  obtain ⟨flat, resolved⟩ := Expr.resolved_of_infer state.started (closed _) run
  rw [← same rfl] at flat resolved
  obtain ⟨subst, _, equated, applied⟩ := InferM.equate_new rfl unbound flat resolved notIn place
  have body := inferBody_value limit name state.self expr place state.started
  rw [inScope] at body
  dsimp only at body
  rw [show InferM.equate state.self _ place last = _ from equated] at body
  obtain ⟨result, _, _, infers, isName, scheme, -⟩ := infer_of_inferBody (closed _) body
  refine ⟨result, _, infers, isName, ?_⟩
  rw [scheme, ← type, ← applied]
  rfl

end Declaration

end Prelude

/-! ## Both queries -/

/-- A single module without imports is in order. -/
theorem ModuleMap.dependencyOrder_single (key : String) {module : Module ι} (noImports : module.imports = []) :
    dependencyOrder [(key, module)] = .ok [key] := by
  have found : get? [(key, module)] key = some module := by simp [get?]
  have visited : visit [(key, module)] [] [] key = .ok [key] := by
    rw [visit_of_get? (by simp) (by simp) found, noImports, visitImports]
    rfl
  simp only [dependencyOrder, keys, List.map_cons, List.map_nil, visitAll, visited]

namespace Checker

/-- A module that imports nothing is inferred in the prelude. -/
theorem checkModules_single (key : String) {module : Module Span} (noImports : module.imports = [])
    (unique : module.checkUnique = .ok ()) (checker : Checker) :
    ∃ events, (checkModules [(key, module)] checker).1 =
      match (Declaration.inferAll checker.limit module.declarations
        { env := Prelude.environment, supply := checker.supply, events }).1 with
      | .ok declarations => .ok [(key, { name := module.name, imports := module.imports, declarations })]
      | .error error => .error (.type error) := by
  have imported : importAll checker.checked key Prelude.environment module.imports = .ok Prelude.environment := by
    rw [noImports, importAll]
  have found : ModuleMap.get? [(key, module)] key = some module := by simp [ModuleMap.get?]
  have run := checkModule_of_imports (checker.ordering [key]) unique imported
  refine ⟨((checker.ordering [key]).checking key).events, ?_⟩
  simp only [start, checking, ordering] at run ⊢
  rw [checkModules_of_order checker (ModuleMap.dependencyOrder_single key noImports),
    checkInOrder_cons_run _ _ found, ordering, run]
  rcases Declaration.inferAll checker.limit module.declarations _ with ⟨error | declarations, mid⟩
  · rfl
  · change Except.ok (List.filterMap _ [key]) = _
    simp [ModuleMap.get?_insert]

theorem inferAll_single (limit : Nat) (declaration : Declaration Span) (state : InferState) :
    (Declaration.inferAll limit [declaration] state).1 = (declaration.infer limit state).1.map ([·]) := by
  rw [Declaration.inferAll, bind_run]
  rcases declaration.infer limit state with ⟨_ | _, _⟩ <;> rfl

end Checker

/-- A module without imports whose only declaration gives a name to an expression. -/
def Expr.named (expr : Expr Span) (title name : String) (place : Span) : Module Span :=
  { name := title, declarations := [{ name, body := expr, info := place }] }

/-- What is found for an expression and what is found for modules with a declaration of it agree. -/
inductive Agree (key name : String) : Except Error Ty → Except Error (ModuleMap Typed) → Prop
  /-- Both succeed, and the declaration has the closed scheme of the type of the expression. -/
  | succeed {type : Ty} {result : ModuleMap Typed} {scheme : Scheme}
      (found : ModuleMap.typeOf result key name = .ok scheme) (closed : scheme.alphaEq (Scheme.closed type) = true) :
      Agree key name (.ok type) (.ok result)
  /-- Both fail with errors of the same kind at the same place. -/
  | fail {error error' : Error} (kind : error'.kind = error.kind) (span : error'.span? = error.span?) :
      Agree key name (.error error) (.error error')

/-- The closed schemes of two shifted types cannot be told apart. -/
theorem Scheme.alphaEq_closed_shift (type : Ty) (offset other : Nat) :
    (closed (type.shift offset)).alphaEq (closed (type.shift other)) = true := by
  rw [alphaEq, closed_shift, closed_shift, normalize_shift, normalize_shift, decide_eq_true_eq]

namespace Checker

/-- Giving an expression a name that it does not refer to finds what asking for its type does. -/
theorem agree_of_unused {expr : Expr Span} (unused : name ∉ expr.references) (key title : String) (place : Span)
    {checker other : Checker} (sameLimit : other.limit = checker.limit) :
    Agree key name ((checkExpr expr checker).1.map Expr.type)
      (checkModules [(key, expr.named title name place)] other).1 := by
  have noImports : (expr.named title name place).imports = [] := rfl
  obtain ⟨events, single⟩ := checkModules_single key noImports rfl other
  rw [single, Expr.named, inferAll_single, checkExpr_run, sameLimit]
  rcases ran : expr.infer checker.limit .prelude with ⟨error | typed, mid⟩
  · obtain ⟨_, run⟩ := Expr.infer_error_of_prelude ran checker.supply checker.events
    obtain ⟨_, run'⟩ := Declaration.infer_error_of_prelude unused ran place other.supply events
    rw [run', show expr.infer checker.limit (checker.start Prelude.environment) = _ from run]
    exact .fail ((Fault.kind_shift _).trans (Fault.kind_shift _).symm) rfl
  · obtain ⟨after, run, learnt⟩ := Expr.infer_ok_of_prelude ran checker.supply checker.events
    obtain ⟨result, _, run', isName, scheme⟩ := Declaration.infer_ok_of_prelude unused ran place other.supply events
    have type := Expr.type_resolve run after.subst
    rw [learnt, Expr.type_shift, ← Substitution.shift_apply] at type
    rw [run', show expr.infer checker.limit (checker.start Prelude.environment) = _ from run]
    have found : ModuleMap.typeOf [(key, { name := title, declarations := [result] })] key name
        = .ok result.info.scheme := by
      simp [ModuleMap.typeOf, ModuleMap.get?, Module.declaration?, isName]
    refine .succeed found ?_
    rw [scheme, learnt, type]
    exact Scheme.alphaEq_closed_shift ..

end Checker

namespace Engine

theorem inferExpr_result (limit : Nat) (expr : Expr Span) :
    (inferExpr limit expr).result = (Checker.checkExpr expr { limit }).1.map Expr.type := by
  rw [inferExpr, run, bind_run]
  rcases Checker.checkExpr expr { limit } with ⟨_ | _, _⟩ <;> rfl

theorem infer_result (limit : Nat) (modules : ModuleMap Span) :
    (infer limit modules).result
      = (Checker.checkModules modules { limit, events := [.inferring modules.length] }).1 := by
  rw [infer, run, bind_run]
  change ((Checker.checkModules modules >>= _) { limit, events := [.inferring modules.length] }).1 = _
  rw [bind_run]
  rcases Checker.checkModules modules _ with ⟨_ | _, _⟩ <;> rfl

/-- The query for the type of an expression and the query for a declaration of it agree, if the expression does not
refer to the declared name: both succeed, and the scheme of the declaration is the closed one of the type up to the
names of variables, or both fail with an error of the same kind at the same place. This holds for whole runs, and for
calls of any two checkers with the same limit, whatever these have inferred before. -/
theorem queries_agree (limit : Nat) {expr : Expr Span} (unused : name ∉ expr.references) (key title : String)
    (place : Span) :
    Agree key name (inferExpr limit expr).result (infer limit [(key, expr.named title name place)]).result ∧
      ∀ checker other : Checker, checker.limit = limit → other.limit = limit →
        Agree key name ((Checker.checkExpr expr checker).1.map Expr.type)
          (Checker.checkModules [(key, expr.named title name place)] other).1 := by
  constructor
  · rw [inferExpr_result, infer_result]
    exact Checker.agree_of_unused unused key title place rfl
  · intro checker other isLimit isLimit'
    exact Checker.agree_of_unused unused key title place (isLimit'.trans isLimit.symm)

/-- A function that binds a name which it does not refer to, and updates a record. -/
def shadowing : Expr Span :=
  .lambda {} [.var {} "x", .var {} "r"] (.update {} "r" [.mk "f" (.integer {} 1)])

/-- A function that applies its second parameter to itself. -/
def selfApplying : Expr Span := .lambda {} [.var {} "x", .var {} "f"] (.application {} (.var {} "f") [.var {} "f"])

theorem queries_agree_shadowing : ("x" ∉ shadowing.references ∧ "x" ∉ selfApplying.references) ∧
    Agree "M" "x" (inferExpr 8 shadowing).result (infer 8 [("M", shadowing.named "M" "x" {})]).result ∧
    Agree "M" "x" (inferExpr 8 selfApplying).result (infer 8 [("M", selfApplying.named "M" "x" {})]).result :=
  ⟨⟨by decide, by decide⟩, (queries_agree 8 (by decide) "M" "M" {}).1, (queries_agree 8 (by decide) "M" "M" {}).1⟩

end Engine

end RowInference
