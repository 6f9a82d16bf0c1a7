import Mathlib.Computability.Primrec.List
import Mathlib.Data.List.Permutation
import RowInference.Proofs.Modules.Checking
import Std.Internal.Do.WP.Lemmas

/-! # Soundness

Whatever a checker returns keeps to the typing rules at every node, with the types that are written on the nodes:
modules in the environments that their imports make, and expressions with the prelude in scope.
-/

namespace RowInference

/-! ## The prelude -/

namespace Prelude

/-- The schemes of the prelude quantify all their variables, and these are written ones. -/
theorem values_closed (issued : Nat) : ∀ entry ∈ values, entry.2.Closed issued := by
  intro entry member
  simp only [values, List.mem_cons, List.not_mem_nil, or_false] at member
  have boolean : (Scheme.mono .bool).Closed issued :=
    .of_within (.of_type (Ty.within_of_isAtom rfl)) (by simp [Scheme.mono, Ty.occurrences])
  rcases member with rfl | rfl | rfl | rfl | rfl | rfl | rfl | rfl | rfl | rfl | rfl
  iterate 2 exact boolean
  all_goals
    refine Scheme.Closed.of_within (Scheme.closed_within _ ?canonical ?flat ?coherent ?written) (Scheme.closed_binds _)
    case canonical => simp [Ty.curried, number, anyType, Ty.Canonical]
    case flat => simp [Ty.curried, number, anyType, Ty.Flat]
    case coherent => unfold Scheme.Coherent; decide
    case written => simp [Ty.curried, number, anyType, TypeVar.named, Ty.occurrences]

/-- A property of the schemes of all named values is one of the whole prelude. -/
theorem environment_all {holds : Scheme → Prop} (all : ∀ entry ∈ values, holds entry.2) : environment.All holds := by
  have start : ({} : Environment).All holds := by
    intro scope member name scheme found
    rw [List.mem_singleton.mp member] at found
    simp at found
  rw [environment]
  generalize values = entries at all
  revert start
  generalize ({} : Environment) = env
  intro start
  induction entries generalizing env with
  | nil => exact start
  | cons entry rest ih =>
    obtain ⟨here, others⟩ := List.forall_mem_cons.mp all
    exact ih others (env.add entry.1 entry.2) (start.add entry.1 here)

end Prelude

/-! ## Declarations and modules -/

/-- The result of a declaration keeps to the typing rules. Below the declaration itself, all nodes have plain types. -/
structure Declaration.Sound (env : Environment) (declaration : Declaration Span) (typed : Declaration Typed) :
    Prop where
  source : typed.erase = declaration
  plain : ∀ info ∈ Pattern.infosOf typed.params ++ typed.body.infos, info.scheme.isMono = true
  ok : typed.WellTyped env.get?

/-- Inference of declarations is sound among schemes without free variables. -/
def Declaration.soundness : Declaration.Law where
  Global := Scheme.Closed
  Good := Declaration.Sound
  mono le closed := closed.mono_le le
  prelude issued := Prelude.environment_all (Prelude.values_closed issued)
  infer closed success := by
    obtain ⟨source, plain, ok, schemeClosed, env⟩ := Declaration.infer_wellTyped closed success
    exact ⟨⟨source, plain, ok⟩, schemeClosed, env⟩

namespace Module

def erase (module : Module Typed) : Module Span where
  name := module.name
  imports := module.imports
  declarations := module.declarations.map Declaration.erase

/-- The result of a module keeps to the typing rules. -/
structure Sound (env : Environment) (module : Module Span) (typed : Module Typed) : Prop where
  source : typed.erase = module
  plain : ∀ declaration ∈ typed.declarations, ∀ info ∈ Pattern.infosOf declaration.params ++ declaration.body.infos,
    info.scheme.isMono = true
  ok : typed.WellTyped env.get?

/-- Declarations that are sound one by one keep to the rules together: each can use those before it. -/
theorem sound_of_goodAll {env : Environment} {declarations : List (Declaration Span)} {typed : List (Declaration Typed)}
    (good : Declaration.soundness.GoodAll env declarations typed) :
    typed.map Declaration.erase = declarations ∧
      (∀ declaration ∈ typed, ∀ info ∈ Pattern.infosOf declaration.params ++ declaration.body.infos,
        info.scheme.isMono = true) ∧
      ∀ before declaration after, typed = before ++ declaration :: after →
        declaration.WellTyped (Context.declare env.get? before) := by
  induction typed generalizing env declarations with
  | nil =>
    cases declarations with
    | nil => exact ⟨rfl, by simp, by simp⟩
    | cons _ _ => exact good.elim
  | cons first rest ih =>
    cases declarations with
    | nil => exact good.elim
    | cons declaration declarations =>
      obtain ⟨here, others⟩ := good
      obtain ⟨source, plain, ok⟩ := ih others
      refine ⟨?_, List.forall_mem_cons.mpr ⟨here.plain, plain⟩, ?_⟩
      · rw [List.map_cons, here.source, source]
      · intro before other after split
        cases before with
        | nil =>
          cases split
          exact here.ok
        | cons head before =>
          cases split
          have shown := ok before other after rfl
          rwa [Environment.get?_add_eq] at shown

/-- A module of sound declarations keeps to the rules. -/
theorem sound_of_goodModule {env : Environment} {module : Module Span} {typed : Module Typed}
    {limit : Nat} (good : Declaration.soundness.GoodModule limit env module typed) : module.Sound env typed := by
  obtain ⟨source, plain, ok⟩ := sound_of_goodAll good.declarations
  refine ⟨?_, plain, ok⟩
  rw [erase, good.name, good.imports, source]

end Module

/-! ## Checkers -/

namespace Checker

variable {checker : Checker}

/-- Inference is sound. The modules that a call returns are those it was given with types on their nodes, and each of
them keeps to the typing rules in the environment that its imports make from the other results. An expression keeps to
the typing rules with the prelude in scope. -/
theorem results_wellTyped (reachable : checker.Reachable) :
    (∀ modules result after, checkModules modules checker = (.ok result, after) →
      result.keys = modules.keys ∧ ∀ key ∈ modules.keys, ∃ module typed env,
        modules.get? key = some module ∧ result.get? key = some typed ∧
        importAll result key Prelude.environment module.imports = .ok env ∧ module.Sound env typed) ∧
    (∀ expr result after, checkExpr expr checker = (.ok result, after) →
      result.mapInfo Typed.span = expr ∧ (∀ info ∈ result.infos, info.scheme.isMono = true) ∧
        result.WellTyped Prelude.environment.get?) := by
  constructor
  · intro modules result after success
    have run := (checkModules_run modules (reachable.importable Declaration.soundness)).2 result (by rw [success])
    refine ⟨run.1, fun key member => ?_⟩
    obtain ⟨module, typed, env, found, isResult, imported, good⟩ := run.2 key member
    exact ⟨module, typed, env, found, isResult, imported, Module.sound_of_goodModule good⟩
  · intro expr result after success
    rw [checkExpr, CheckM.infer_run] at success
    rcases ran : expr.inferClosed checker.limit (checker.start Prelude.environment) with ⟨_ | typed, mid⟩
    · rw [ran] at success
      cases success
    · rw [ran] at success
      cases success
      have closed : Prelude.environment.All (Scheme.Closed checker.supply.issued) := Declaration.soundness.prelude _
      exact Expr.inferClosed_wellTyped (by exact closed) ran

/-- A module before the one it imports: `use s = Rows.get s` and `get r = r.x`. -/
def importing : ModuleMap Span :=
  [("Use", {
      name := "Use"
      imports := [{ target := "Rows" }]
      declarations := [{
        name := "use"
        params := [.var {} "s"]
        body := .application {} (.var {} "Rows.get") [.var {} "s"]
        info := {} }] }),
    ("Rows", {
      name := "Rows"
      declarations := [{ name := "get", params := [.var {} "r"], body := .access {} (.var {} "r") "x", info := {} }] })]

theorem importing_isOk : (checkModules importing { limit := 4 }).1.isOk = true := by cbv

theorem results_wellTyped_importing : ∃ result after, checkModules importing { limit := 4 } = (.ok result, after) ∧
    ∃ (module : Module Span) (typed : Module Typed) (env : Environment), result.get? "Use" = some typed ∧
      importAll result "Use" Prelude.environment module.imports = .ok env ∧ module.Sound env typed := by
  obtain ⟨result, after, run⟩ := exists_eq_ok importing_isOk
  obtain ⟨_, sound⟩ := (results_wellTyped (.new 4)).1 importing result after run
  obtain ⟨module, typed, env, _, found, imported, ok⟩ := sound "Use" (by decide)
  exact ⟨result, after, run, module, typed, env, found, imported, ok⟩

end Checker

end RowInference
