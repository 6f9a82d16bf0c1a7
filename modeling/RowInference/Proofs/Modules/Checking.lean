import RowInference.Proofs.Inference.Completion
import RowInference.Proofs.Modules.Order

/-! # Runs of the checker

What is known about the inference of one declaration carries over to modules that import each other, because the modules
that are imported have been inferred before. A `Declaration.Law` is such knowledge: from a property of all schemes in
scope it gets one of the declaration, and the same property of its scheme.
-/

namespace RowInference

/-! ## Module maps -/

namespace ModuleMap

variable {ι : Type}

theorem get?_cons (key : String) (module : Module ι) (rest : ModuleMap ι) (other : String) :
    ModuleMap.get? ((key, module) :: rest) other = if other = key then some module else rest.get? other := by
  rw [get?, List.lookup_cons]
  by_cases same : other = key
  · rw [same, beq_self_eq_true, if_pos rfl]
  · rw [beq_eq_false_iff_ne.mpr same, if_neg same]
    rfl

/-- A module that is put in changes nothing under the other keys. -/
theorem get?_insert (modules : ModuleMap ι) (key : String) (module : Module ι) (other : String) :
    (modules.insert key module).get? other = if other = key then some module else modules.get? other := by
  induction modules with
  | nil => rw [insert, get?_cons]
  | cons entry rest ih =>
    obtain ⟨first, old⟩ := entry
    rw [insert, get?_cons]
    split
    · next same =>
      rw [get?_cons, ← same]
      by_cases here : other = key
      · rw [if_pos here, if_pos here]
      · rw [if_neg here, if_neg here, if_neg here]
    · next new =>
      rw [get?_cons, ih]
      by_cases here : other = first
      · rw [if_pos here, if_pos here, if_neg (by rw [here]; exact Ne.symm new)]
      · rw [if_neg here, if_neg here]

/-- The modules under given keys. -/
theorem get?_filterMap (keys : List String) (modules : ModuleMap ι) (key : String) :
    ModuleMap.get? (keys.filterMap fun key => (modules.get? key).map fun module => (key, module)) key
      = if key ∈ keys then modules.get? key else none := by
  induction keys with
  | nil => rfl
  | cons first rest ih =>
    cases found : modules.get? first with
    | none =>
      rw [List.filterMap_cons_none (by rw [found, Option.map_none]), ih]
      by_cases here : key = first
      · simp [here, found]
      · simp [here]
    | some module =>
      rw [List.filterMap_cons_some (by rw [found, Option.map_some]), get?_cons, ih]
      by_cases here : key = first
      · simp [here, found]
      · simp [here]

theorem keys_filterMap {keys : List String} {modules : ModuleMap ι}
    (present : ∀ key ∈ keys, modules.contains key = true) :
    ModuleMap.keys (keys.filterMap fun key => (modules.get? key).map fun module => (key, module)) = keys := by
  induction keys with
  | nil => rfl
  | cons key rest ih =>
    obtain ⟨here, others⟩ := List.forall_mem_cons.mp present
    obtain ⟨module, found⟩ := Option.isSome_iff_exists.mp here
    rw [List.filterMap_cons_some (by rw [found, Option.map_some])]
    exact congrArg (key :: ·) (ih others)

end ModuleMap

/-! ## Declarations and imports -/

/-- What is known about the inference of a declaration in an environment whose schemes have a property. -/
structure Declaration.Law where
  /-- The property of schemes in scope, when so many variables have been issued. -/
  Global : Nat → Scheme → Prop
  /-- What holds of a declaration and its result in an environment. -/
  Good : Environment → Declaration Span → Declaration Typed → Prop
  mono {issued later : Nat} {scheme : Scheme} : issued ≤ later → Global issued scheme → Global later scheme
  prelude (issued : Nat) : Prelude.environment.All (Global issued)
  infer {limit : Nat} {state after : InferState} {declaration : Declaration Span} {typed : Declaration Typed} :
    state.env.All (Global state.supply.issued) → declaration.infer limit state = (.ok typed, after) →
      Good state.env declaration typed ∧ Global after.supply.issued typed.info.scheme ∧
        after.env = state.env.add typed.name typed.info.scheme

/-- Imports bring only schemes with the property into scope if the imported module has no others. -/
theorem Environment.All.addImport {env : Environment} {holds : Scheme → Prop} (all : env.All holds) (entry : Import)
    {module : Module Typed} (new : ∀ declaration ∈ module.declarations, holds declaration.info.scheme) :
    (env.addImport entry module).All holds := by
  rw [Environment.addImport]
  generalize module.declarations = declarations at new
  induction declarations generalizing env with
  | nil => exact all
  | cons declaration rest ih =>
    obtain ⟨here, others⟩ := List.forall_mem_cons.mp new
    refine ih ?_ others
    dsimp only
    split
    · exact (all.add _ here).add _ here
    · exact all.add _ here

/-- The state in which a checker starts inference in an environment. -/
def Checker.start (checker : Checker) (env : Environment) : InferState :=
  { env, supply := checker.supply, events := checker.events }

namespace Declaration.Law

variable (law : Declaration.Law)

/-- What holds of the declarations of a module, each in the environment the earlier ones leave behind. -/
def GoodAll : Environment → List (Declaration Span) → List (Declaration Typed) → Prop
  | _, [], [] => True
  | env, declaration :: rest, typed :: typedRest =>
    law.Good env declaration typed ∧ GoodAll (env.add typed.name typed.info.scheme) rest typedRest
  | _, _, _ => False

structure GoodModule (limit : Nat) (env : Environment) (module : Module Span) (typed : Module Typed) : Prop where
  name : typed.name = module.name
  imports : typed.imports = module.imports
  declarations : law.GoodAll env module.declarations typed.declarations
  unique : module.checkUnique = .ok ()
  run : ∃ (checker : Checker) (mid : InferState), env.All (law.Global checker.supply.issued) ∧
    Declaration.inferAll limit module.declarations (checker.start env) = (.ok typed.declarations, mid)

/-- Modules whose schemes can be imported. -/
def Importable (issued : Nat) (checked : ModuleMap Typed) : Prop :=
  ∀ key module, checked.get? key = some module → ∀ declaration ∈ module.declarations,
    law.Global issued declaration.info.scheme

variable {law} {limit issued later : Nat} {checked : ModuleMap Typed} {key : String}

theorem Importable.mono (importable : law.Importable issued checked) (le : issued ≤ later) :
    law.Importable later checked :=
  fun key module found declaration member => law.mono le (importable key module found declaration member)

/-- A module whose schemes have the property can be imported afterwards. -/
theorem Importable.insert (importable : law.Importable issued checked) {module : Module Typed}
    (global : ∀ declaration ∈ module.declarations, law.Global issued declaration.info.scheme) :
    law.Importable issued (checked.insert key module) := by
  intro other module' found
  rw [ModuleMap.get?_insert] at found
  split at found
  · cases found
    exact global
  · exact importable other module' found

/-- The declarations of a module are good one after the other, since each is published with a scheme that has the
property. -/
theorem goodAll_of_inferAll {declarations : List (Declaration Span)} {typed : List (Declaration Typed)}
    {state after : InferState} (global : state.env.All (law.Global state.supply.issued))
    (success : Declaration.inferAll limit declarations state = (.ok typed, after)) :
    law.GoodAll state.env declarations typed ∧
      ∀ declaration ∈ typed, law.Global after.supply.issued declaration.info.scheme := by
  induction declarations generalizing state typed with
  | nil =>
    obtain ⟨rfl, rfl⟩ := pure_eq_ok.mp success
    exact ⟨trivial, by simp⟩
  | cons declaration rest ih =>
    obtain ⟨first, mid, ran, success⟩ := bind_eq_ok.mp success
    obtain ⟨others, last, ranRest, success⟩ := bind_eq_ok.mp success
    obtain ⟨rfl, rfl⟩ := pure_eq_ok.mp success
    have begun := (declaration.script limit).issued_le state
    have ended := (Declaration.allScript limit rest).issued_le mid
    rw [ran] at begun
    rw [ranRest] at ended
    obtain ⟨good, new, env⟩ := law.infer global ran
    have global' : mid.env.All (law.Global mid.supply.issued) := by
      rw [env]
      exact (global.imp fun _ => law.mono begun).add _ new
    obtain ⟨goodRest, newRest⟩ := ih global' ranRest
    rw [env] at goodRest
    exact ⟨⟨good, goodRest⟩, List.forall_mem_cons.mpr ⟨law.mono ended new, newRest⟩⟩

/-- What is imported has the property of all that can be imported. -/
theorem global_of_importAll (importable : law.Importable issued checked) {imports : List Import}
    {env env' : Environment}
    (global : env.All (law.Global issued)) (success : Checker.importAll checked key env imports = .ok env') :
    env'.All (law.Global issued) := by
  induction imports generalizing env with
  | nil =>
    cases success
    exact global
  | cons entry rest ih =>
    rw [Checker.importAll] at success
    split at success
    · next module found =>
      exact ih (global.addImport entry (importable _ module found)) success
    · cases success

end Declaration.Law

/-- Imports look at the imported modules only. -/
theorem Checker.importAll_congr {checked other : ModuleMap Typed} {key : String} {imports : List Import}
    (same : ∀ entry ∈ imports, checked.get? entry.target = other.get? entry.target) (env : Environment) :
    importAll checked key env imports = importAll other key env imports := by
  induction imports generalizing env with
  | nil => rfl
  | cons entry rest ih =>
    obtain ⟨here, others⟩ := List.forall_mem_cons.mp same
    rw [importAll, importAll, here]
    split
    · exact ih others _
    · rfl

/-! ## Runs -/

theorem CheckM.ofInput_run {α : Type} (result : Except InputError α) (checker : Checker) :
    CheckM.ofInput result checker = (result.mapError Error.input, checker) := by
  cases result <;> rfl

/-- Inference in a checker: its error is passed on, and the supply is kept. -/
theorem CheckM.infer_run {α : Type} (env : Environment) (action : Nat → InferM α) (checker : Checker) :
    CheckM.infer env action checker = ((action checker.limit (checker.start env)).1.mapError Error.type,
      { checker with
        supply := (action checker.limit (checker.start env)).2.supply
        events := (action checker.limit (checker.start env)).2.events }) := rfl

namespace Checker

variable {checker : Checker}

/-- A call that infers an expression is an inference in the prelude. -/
theorem checkExpr_run (expr : Expr Span) (checker : Checker) :
    checkExpr expr checker = match expr.infer checker.limit (checker.start Prelude.environment) with
      | (.ok typed, mid) => (.ok (typed.mapInfo (Typed.resolve mid.subst)),
        { checker with supply := mid.supply, events := mid.events })
      | (.error error, mid) => (.error (.type error), { checker with supply := mid.supply, events := mid.events }) := by
  have closed := Expr.inferClosed_run checker.limit expr (checker.start Prelude.environment)
  have unlearnt : { checker.start Prelude.environment with subst := {} } = checker.start Prelude.environment := rfl
  rw [unlearnt] at closed
  rw [checkExpr, CheckM.infer_run, closed]
  rcases expr.infer checker.limit (checker.start Prelude.environment) with ⟨_ | typed, mid⟩ <;> rfl

theorem of_checkExpr {after : Checker} {expr : Expr Span} {result : Expr Typed}
    (success : checkExpr expr checker = (.ok result, after)) :
    ∃ mid, expr.inferClosed checker.limit (checker.start Prelude.environment) = (.ok result, mid) := by
  rw [checkExpr, CheckM.infer_run] at success
  rcases ran : expr.inferClosed checker.limit (checker.start Prelude.environment) with ⟨_ | typed, mid⟩
  · rw [ran] at success
    cases success
  · rw [ran] at success
    cases success
    exact ⟨mid, rfl⟩

def checking (checker : Checker) (key : String) : Checker :=
  { checker with events := .checking key :: checker.events }

/-- The result of a module is that of its declarations, in the environment of its imports. -/
structure Inferred (key : String) (module : Module Span) (before after : Checker) (typed : Module Typed) : Prop where
  name : typed.name = module.name
  imports : typed.imports = module.imports
  unique : module.checkUnique = .ok ()
  declarations : ∃ env mid, importAll before.checked key Prelude.environment module.imports = .ok env ∧
    Declaration.inferAll before.limit module.declarations ((before.checking key).start env)
      = (.ok typed.declarations, mid) ∧ after.supply = mid.supply

/-- A module is inferred if it declares no name twice and all its imports have been inferred. -/
theorem checkModule_of_imports {key : String} {module : Module Span} {env : Environment} (checker : Checker)
    (unique : module.checkUnique = .ok ())
    (imported : importAll checker.checked key Prelude.environment module.imports = .ok env) :
    checkModule key module checker =
      match Declaration.inferAll checker.limit module.declarations ((checker.checking key).start env) with
      | (.ok declarations, mid) => (.ok { name := module.name, imports := module.imports, declarations },
          { checker with supply := mid.supply, events := mid.events })
      | (.error error, mid) => (.error (.type error), { checker with supply := mid.supply, events := mid.events }) := by
  rw [checkModule, bind_run]
  change (CheckM.ofInput module.checkUnique >>= _) (checker.checking key) = _
  rw [bind_run, CheckM.ofInput_run, unique]
  change (CheckM.ofInput (importAll checker.checked key Prelude.environment module.imports) >>= _)
    (checker.checking key) = _
  rw [bind_run, CheckM.ofInput_run, imported]
  change (CheckM.infer env _ >>= _) (checker.checking key) = _
  have sameLimit : (checker.checking key).limit = checker.limit := rfl
  rw [bind_run, CheckM.infer_run, sameLimit]
  rcases Declaration.inferAll checker.limit module.declarations ((checker.checking key).start env) with
    ⟨_ | _, mid⟩ <;> rfl

/-- A module that declares a name twice, or that imports what has not been inferred, changes nothing but the log. -/
theorem checkModule_of_input {key : String} {module : Module Span} (checker : Checker)
    (refused : ∀ env, module.checkUnique = .ok () →
      importAll checker.checked key Prelude.environment module.imports ≠ .ok env) :
    ∃ error events, checkModule key module checker = (.error error, { checker with events }) := by
  rw [checkModule, bind_run]
  change ∃ error events, (CheckM.ofInput module.checkUnique >>= _)
    { checker with events := .checking key :: checker.events } = (.error error, { checker with events })
  rw [bind_run, CheckM.ofInput_run]
  cases unique : module.checkUnique with
  | error error => exact ⟨_, _, rfl⟩
  | ok _ =>
    change ∃ error events, (CheckM.ofInput (importAll checker.checked key Prelude.environment module.imports) >>= _)
      { checker with events := .checking key :: checker.events } = (.error error, { checker with events })
    rw [bind_run, CheckM.ofInput_run]
    cases imported : importAll checker.checked key Prelude.environment module.imports with
    | error error => exact ⟨_, _, rfl⟩
    | ok env => exact absurd imported (refused env unique)

/-- Inference of a module keeps the modules inferred before and the limit, and it takes no variables back, also when it
fails. -/
theorem checkModule_run (key : String) (module : Module Span) (checker : Checker) :
    (checkModule key module checker).2.checked = checker.checked ∧
      (checkModule key module checker).2.limit = checker.limit ∧
      checker.supply.issued ≤ (checkModule key module checker).2.supply.issued ∧
      ∀ typed, (checkModule key module checker).1 = .ok typed →
        Inferred key module checker (checkModule key module checker).2 typed := by
  by_cases accepted : ∃ env, module.checkUnique = .ok () ∧
      importAll checker.checked key Prelude.environment module.imports = .ok env
  · obtain ⟨env, unique, imported⟩ := accepted
    have run := checkModule_of_imports checker unique imported
    have le := (Declaration.allScript checker.limit module.declarations).issued_le ((checker.checking key).start env)
    rcases ran : Declaration.inferAll checker.limit module.declarations ((checker.checking key).start env) with
      ⟨_ | typed, mid⟩
    · rw [ran] at le run
      rw [run]
      exact ⟨rfl, rfl, le, by rintro _ ⟨⟩⟩
    · rw [ran] at le run
      rw [run]
      refine ⟨rfl, rfl, le, ?_⟩
      rintro _ ⟨⟩
      exact ⟨rfl, rfl, unique, env, mid, imported, ran, rfl⟩
  · obtain ⟨error, events, run⟩ := checkModule_of_input checker fun env unique imported =>
      accepted ⟨env, unique, imported⟩
    rw [run]
    exact ⟨rfl, rfl, Nat.le_refl _, by rintro _ ⟨⟩⟩

section Laws

variable {law : Declaration.Law} {key : String} {module : Module Span} {modules : ModuleMap Span}

/-- An inferred module is good if those inferred before can be imported. -/
theorem Inferred.good {after : Checker} {typed : Module Typed} (inferred : Inferred key module checker after typed)
    (importable : law.Importable checker.supply.issued checker.checked) :
    (∃ env, importAll checker.checked key Prelude.environment module.imports = .ok env ∧
      law.GoodModule checker.limit env module typed) ∧
    ∀ declaration ∈ typed.declarations, law.Global after.supply.issued declaration.info.scheme := by
  obtain ⟨env, mid, imported, ran, supply⟩ := inferred.declarations
  have global := Declaration.Law.global_of_importAll importable (law.prelude _) imported
  obtain ⟨good, new⟩ := Declaration.Law.goodAll_of_inferAll (by exact global) ran
  rw [supply]
  exact ⟨⟨env, imported, inferred.name, inferred.imports, good, inferred.unique,
    checker.checking key, mid, global, ran⟩, new⟩

/-- The result of a module can be imported, like those before it. -/
theorem importable_of_checkModule {after : Checker} {typed : Module Typed}
    (importable : law.Importable checker.supply.issued checker.checked)
    (ran : checkModule key module checker = (.ok typed, after)) :
    law.Importable after.supply.issued (after.checked.insert key typed) := by
  obtain ⟨same, _, le, results⟩ := checkModule_run key module checker
  rw [ran] at same le results
  refine Declaration.Law.Importable.insert ?_ ((results typed rfl).good importable).2
  rw [same]
  exact importable.mono le

variable (law modules) in
/-- The module under a key has been inferred, and so have those it imports. -/
def Settled (limit : Nat) (checked : ModuleMap Typed) (key : String) : Prop :=
  ∃ module typed env, modules.get? key = some module ∧ checked.get? key = some typed ∧
    importAll checked key Prelude.environment module.imports = .ok env ∧ law.GoodModule limit env module typed

/-- Whether a module is settled depends on itself and on what it imports. -/
theorem Settled.congr {limit : Nat} {checked other : ModuleMap Typed} (settled : Settled law modules limit checked key)
    (here : checked.get? key = other.get? key)
    (imports : ∀ module, modules.get? key = some module → ∀ entry ∈ module.imports,
      checked.get? entry.target = other.get? entry.target) : Settled law modules limit other key := by
  obtain ⟨module, typed, env, found, result, imported, good⟩ := settled
  refine ⟨module, typed, env, found, here ▸ result, ?_, good⟩
  rw [← imported]
  exact (importAll_congr (imports module found) _).symm

/-- The first module is inferred and kept, then the others. -/
theorem checkInOrder_cons_run (rest : List String) (checker : Checker) (found : modules.get? key = some module) :
    checkInOrder modules (key :: rest) checker = match checkModule key module checker with
      | (.ok typed, mid) => checkInOrder modules rest { mid with checked := mid.checked.insert key typed }
      | (.error error, mid) => (.error error, mid) := by
  rw [checkInOrder, found]
  change (checkModule key module >>= _) checker = _
  rw [bind_run]
  rcases checkModule key module checker with ⟨_ | _, mid⟩ <;> rfl

/-- Modules in order: each is inferred when those it imports have been, and later ones leave it alone. -/
theorem checkInOrder_run (checker : Checker) {done rest : List String} (ordered : modules.Ordered (done ++ rest))
    (importable : law.Importable checker.supply.issued checker.checked)
    (settled : ∀ key ∈ done, Settled law modules checker.limit checker.checked key) :
    law.Importable (checkInOrder modules rest checker).2.supply.issued (checkInOrder modules rest checker).2.checked ∧
      ((checkInOrder modules rest checker).1 = .ok () →
        ∀ key ∈ done ++ rest, Settled law modules checker.limit (checkInOrder modules rest checker).2.checked key) := by
  induction rest generalizing done checker with
  | nil =>
    rw [List.append_nil]
    exact ⟨importable, fun _ => settled⟩
  | cons key rest ih =>
    obtain ⟨module, found⟩ := Option.isSome_iff_exists.mp (ordered.present key (by simp))
    have imports := ordered.imports rfl found
    have new : key ∉ done := fun member =>
      (List.nodup_append.mp ordered.nodup).2.2 key member key (List.mem_cons_self ..) rfl
    rw [checkInOrder_cons_run rest checker found]
    obtain ⟨same, sameLimit, le, results⟩ := checkModule_run key module checker
    rcases ran : checkModule key module checker with ⟨error | typed, mid⟩
    · rw [ran] at same le
      refine ⟨?_, by rintro ⟨⟩⟩
      rw [same]
      exact importable.mono le
    · rw [ran] at same sameLimit results
      obtain ⟨env, imported, good⟩ := ((results typed rfl).good importable).1
      let next : Checker := { mid with checked := mid.checked.insert key typed }
      -- The results for the modules before this one stay as they are, and so does what those modules import.
      have unchanged : ∀ other ∈ done, checker.checked.get? other = next.checked.get? other := by
        intro other member
        rw [ModuleMap.get?_insert, if_neg fun isKey : other = key => new (isKey ▸ member), same]
      have ordered' : modules.Ordered ((done ++ [key]) ++ rest) := by rwa [List.append_assoc]
      have importable' : law.Importable next.supply.issued next.checked := importable_of_checkModule importable ran
      have before : ∀ other ∈ done, ∀ module, modules.get? other = some module → ∀ entry ∈ module.imports,
          entry.target ∈ done := by
        intro other member module found
        obtain ⟨early, late, rfl⟩ := List.append_of_mem member
        have split : (early ++ other :: late) ++ key :: rest = early ++ other :: (late ++ key :: rest) := by simp
        exact fun entry inImports => List.mem_append_left _ (ordered.imports split found entry inImports)
      have settled' : ∀ other ∈ done ++ [key], Settled law modules checker.limit next.checked other := by
        intro other member
        rcases List.mem_append.mp member with old | isKey
        · exact (settled other old).congr (unchanged other old) fun module found entry inImports =>
            unchanged _ (before other old module found entry inImports)
        · rw [List.mem_singleton.mp isKey]
          refine ⟨module, typed, env, found, by rw [ModuleMap.get?_insert, if_pos rfl], ?_, good⟩
          rw [← imported]
          exact (importAll_congr (fun entry inImports => unchanged _ (imports entry inImports)) _).symm
      have run := ih next ordered' importable' (by rwa [show next.limit = checker.limit from sameLimit])
      rw [List.append_assoc, show next.limit = checker.limit from sameLimit] at run
      exact run

def ordering (checker : Checker) (order : List String) : Checker :=
  { checker with events := .ordered order :: checker.events }

/-- Modules that can be ordered are inferred in that order. -/
theorem checkModules_of_order {order : List String} (checker : Checker)
    (isOrder : modules.dependencyOrder = .ok order) :
    checkModules modules checker = match checkInOrder modules order (checker.ordering order) with
      | (.error error, after) => (.error error, after)
      | (.ok _, after) => (.ok (modules.keys.filterMap fun key =>
          (after.checked.get? key).map fun typed => (key, typed)), after) := by
  rw [checkModules, bind_run, CheckM.ofInput_run, isOrder]
  change (checkInOrder modules order >>= _) (checker.ordering order) = _
  rw [bind_run]
  rcases checkInOrder modules order (checker.ordering order) with ⟨_ | _, after⟩ <;> rfl

theorem checkModules_of_error {error : InputError} (checker : Checker)
    (noOrder : modules.dependencyOrder = .error error) :
    checkModules modules checker = (.error (.input error), checker) := by
  rw [checkModules, bind_run, CheckM.ofInput_run, noOrder]
  rfl

/-- A success has found an order and inferred all modules in it. It returns them as they are kept. -/
theorem of_checkModules {after : Checker} {result : ModuleMap Typed}
    (success : checkModules modules checker = (.ok result, after)) :
    ∃ order, modules.dependencyOrder = .ok order ∧
      checkInOrder modules order (checker.ordering order) = (.ok (), after) ∧
      result = modules.keys.filterMap fun key => (after.checked.get? key).map fun typed => (key, typed) := by
  cases isOrder : modules.dependencyOrder with
  | error error =>
    rw [checkModules_of_error checker isOrder] at success
    cases success
  | ok order =>
    rw [checkModules_of_order checker isOrder] at success
    refine ⟨order, rfl, ?_⟩
    rcases ran : checkInOrder modules order (checker.ordering order) with ⟨_ | _, last⟩
    · rw [ran] at success
      cases success
    · rw [ran] at success
      cases success
      exact ⟨rfl, rfl⟩

/-- What a call with modules leaves behind, and what a success returns. -/
theorem checkModules_run (modules : ModuleMap Span)
    (importable : law.Importable checker.supply.issued checker.checked) :
    law.Importable (checkModules modules checker).2.supply.issued (checkModules modules checker).2.checked ∧
      ∀ result, (checkModules modules checker).1 = .ok result →
        result.keys = modules.keys ∧ ∀ key ∈ modules.keys, Settled law modules checker.limit result key := by
  cases isOrder : modules.dependencyOrder with
  | error error =>
    rw [checkModules_of_error checker isOrder]
    exact ⟨importable, by rintro _ ⟨⟩⟩
  | ok order =>
    obtain ⟨ordered, complete⟩ := ModuleMap.dependencyOrder_ordered isOrder
    have run := checkInOrder_run (checker.ordering order) (show modules.Ordered ([] ++ order) from ordered) importable
      (by simp)
    rw [checkModules_of_order checker isOrder]
    rcases ran : checkInOrder modules order (checker.ordering order) with ⟨_ | _, after⟩
    · rw [ran] at run
      exact ⟨run.1, by rintro _ ⟨⟩⟩
    · rw [ran] at run
      refine ⟨run.1, ?_⟩
      rintro _ ⟨⟩
      have settled := run.2 rfl
      rw [List.nil_append] at settled
      have same : ∀ key ∈ modules.keys, after.checked.get? key = ModuleMap.get?
          (modules.keys.filterMap fun key => (after.checked.get? key).map fun typed => (key, typed)) key :=
        fun key member => by rw [ModuleMap.get?_filterMap, if_pos member]
      constructor
      · refine ModuleMap.keys_filterMap fun key member => ?_
        obtain ⟨_, typed, _, _, found, _⟩ := settled key (complete key member)
        rw [ModuleMap.contains, found, Option.isSome_some]
      · intro key member
        refine (settled key (complete key member)).congr (same key member) fun module found entry inImports => ?_
        obtain ⟨before, late, isSplit⟩ := List.append_of_mem (complete key member)
        have imported := ordered.imports isSplit found entry inImports
        have present := ordered.present entry.target (by rw [isSplit]; exact List.mem_append_left _ imported)
        obtain ⟨module', found'⟩ := Option.isSome_iff_exists.mp present
        exact same _ (ModuleMap.mem_keys_of_get? found')

end Laws

/-! ## All checkers -/

/-- The checkers that calls can lead to, from a new one. Calls may fail. -/
inductive Reachable : Checker → Prop where
  | new (limit : Nat) : Reachable { limit }
  | relimit {checker : Checker} (limit : Nat) : Reachable checker → Reachable { checker with limit }
  | checkModule {checker : Checker} (key : String) (module : Module Span) :
    Reachable checker → Reachable (checkModule key module checker).2
  | checkModules {checker : Checker} (modules : ModuleMap Span) :
    Reachable checker → Reachable (checkModules modules checker).2
  | checkExpr {checker : Checker} (expr : Expr Span) : Reachable checker → Reachable (checkExpr expr checker).2

/-- Whatever has been inferred can be imported. -/
theorem Reachable.importable (law : Declaration.Law) (reachable : checker.Reachable) :
    law.Importable checker.supply.issued checker.checked := by
  induction reachable with
  | new limit =>
    intro key module found
    cases found
  | relimit limit _ ih => exact ih
  | checkModule key module _ ih =>
    obtain ⟨same, _, le, _⟩ := checkModule_run key module _
    rw [same]
    exact ih.mono le
  | checkModules modules _ ih => exact (checkModules_run modules ih).1
  | @checkExpr checker expr _ ih =>
    exact ih.mono ((expr.closedScript checker.limit).issued_le (checker.start Prelude.environment))

end Checker

end RowInference
