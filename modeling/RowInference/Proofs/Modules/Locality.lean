import Mathlib.Logic.Relation
import RowInference.Proofs.Inference.Shift
import RowInference.Proofs.Modules.Results

/-! # What the result of a module depends on

The result of a module depends on the module and on what it imports, directly or not. Other modules, their order and the
calls that a checker has served before change only the numbers of variables: they decide how many variables have been
issued when the module's turn comes. Whether inference succeeds does not depend on the order either.
-/

namespace RowInference

open Relation (ReflTransGen)

variable {limit offset : Nat}

/-! ## Declarations -/

/-- Schemes whose uses cannot be told apart. -/
structure Scheme.Alike (scheme other : Scheme) : Prop where
  noFree : scheme.NoFree
  noFree' : other.NoFree
  uses : ∀ supply, other.instantiate supply = scheme.instantiate supply

namespace Scheme

theorem NoFree.shift {scheme : Scheme} (noFree : scheme.NoFree) : (scheme.shift offset).NoFree := by
  intro v member
  rw [Scheme.shift, Ty.occurrences_shift] at member
  obtain ⟨source, inBody, rfl⟩ := List.mem_map.mp member
  obtain ⟨binder, isBinder, same⟩ := binds_iff.mp (noFree source inBody)
  exact binds_iff.mpr ⟨binder.shift offset, List.mem_map_of_mem isBinder, by simp [same]⟩

/-- A scheme without free variables cannot be told from a shifted one. -/
theorem NoFree.alike_shift {scheme : Scheme} (noFree : scheme.NoFree) : scheme.Alike (scheme.shift offset) :=
  ⟨noFree, noFree.shift, noFree.instantiate_shift⟩

theorem NoFree.alike {scheme : Scheme} (noFree : scheme.NoFree) : scheme.Alike scheme :=
  ⟨noFree, noFree, fun _ => rfl⟩

theorem Alike.symm {scheme other : Scheme} (alike : scheme.Alike other) : other.Alike scheme :=
  ⟨alike.noFree', alike.noFree, fun supply => (alike.uses supply).symm⟩

/-- The uses of schemes that cannot be told apart differ in the numbers of variables only. -/
theorem Alike.shifted {scheme other : Scheme} (alike : scheme.Alike other) : scheme.Shifted offset other := by
  intro supply
  rw [alike.uses, alike.noFree.instantiate_supply_shift]

end Scheme

/-- Results of a declaration that differ only in the numbers of variables. -/
structure Declaration.Twins (typed other : Declaration Typed) : Prop where
  name : other.name = typed.name
  alike : typed.info.scheme.Alike other.info.scheme
  normal : other.info.scheme.normalize = typed.info.scheme.normalize

theorem Declaration.Twins.symm {typed other : Declaration Typed} (twins : typed.Twins other) : other.Twins typed :=
  ⟨twins.name.symm, twins.alike.symm, twins.normal.symm⟩

/-- The second state is the first one with a later supply, and no scheme in scope has free variables. -/
structure InferState.ShiftedClosed (offset : Nat) (state other : InferState) : Prop where
  shifted : state.Shifted offset other
  closed : state.env.All (Scheme.Closed state.supply.issued)
  closed' : other.env.All (Scheme.Closed other.supply.issued)

namespace Declaration

/-- Among closed schemes a declaration gets the closed scheme of the type of its name. -/
theorem infer_of_inferBody {declaration : Declaration Span} {state mid : InferState}
    {typed : List (Pattern Typed) × Expr Typed} (closed : state.env.All (Scheme.Closed state.supply.issued))
    (ran : inferBody limit state.self declaration state.started = (.ok typed, mid)) :
    ∃ (result : Declaration Typed) (env : Environment) (events : List Event),
      declaration.infer limit state = (.ok result, { mid with subst := {}, env, events }) ∧
      result.name = declaration.name ∧ result.info.scheme = Scheme.closed (mid.subst.apply state.self) ∧
      env = state.env.add result.name result.info.scheme ∧ env.All (Scheme.Closed mid.supply.issued) := by
  have run := infer_run limit declaration state
  rw [ran] at run
  have le := (declaration.script limit).issued_le state
  rw [run] at le
  obtain ⟨_, _, ok, schemeClosed, env⟩ := infer_wellTyped closed run
  have body := congrArg Scheme.body ok.scheme
  have allClosed := (closed.imp fun _ isClosed => isClosed.mono_le le).add declaration.name schemeClosed
  rw [← env] at allClosed
  exact ⟨_, _, _, run, rfl, ok.scheme.trans (congrArg Scheme.closed body.symm), env, allClosed⟩

theorem inferBody_shifts (limit : Nat) (self : Ty) (declaration : Declaration Span) :
    InferM.Shifts offset (Prod.map (List.map (Pattern.shift offset)) (Expr.shift offset))
      (inferBody limit self declaration) (inferBody limit (self.shift offset) declaration) :=
  .inScope ((InferM.Shifts.declare declaration.name (Scheme.shifted_mono self)).bind fun _ =>
    (Expr.inferParams_shifts limit declaration.params).bind fun params =>
      (Expr.infer_shifts limit declaration.body).bind fun body =>
        (InferM.Shifts.equate rfl rfl (functionType_shift params body)).bind fun _ => .pure rfl)

/-- With a later supply a declaration gets the same scheme, up to the numbers of variables. -/
theorem infer_follows (limit : Nat) (declaration : Declaration Span) :
    Follows (InferState.ShiftedClosed offset) (fun _ _ => True) Twins (declaration.infer limit)
      (declaration.infer limit) := by
  intro state other ⟨shifted, closed, closed'⟩
  have started : state.started.Shifted offset other.started :=
    { shifted with
      subst := Substitution.shift_empty.symm
      supply := by simp [InferState.started, shifted.supply, Supply.shift, Nat.add_right_comm] }
  have self : other.self = state.self.shift offset := by
    simp [InferState.self, shifted.supply, Supply.shift, Ty.shift, TypeVar.shift, VarId.shift]
  rcases inferBody_shifts limit state.self declaration state.started other.started started with
    ⟨error, error', after, after', ran, ran', _⟩ | ⟨value, value', mid, mid', ran, ran', _, mids⟩
  · rw [← self] at ran'
    have run := infer_run limit declaration state
    have run' := infer_run limit declaration other
    rw [ran] at run
    rw [ran'] at run'
    exact .inl ⟨_, _, _, _, run, run', trivial⟩
  · rw [← self] at ran'
    obtain ⟨result, _, events, run, name, scheme, rfl, allClosed⟩ := infer_of_inferBody closed ran
    obtain ⟨result', _, events', run', name', scheme', rfl, allClosed'⟩ := infer_of_inferBody closed' ran'
    rw [mids.subst, self, ← Substitution.shift_apply, Scheme.closed_shift] at scheme'
    have noFree : (Scheme.closed (mid.subst.apply state.self)).NoFree := Scheme.closed_noFree _
    have alike : result.info.scheme.Alike result'.info.scheme := by
      rw [scheme, scheme']
      exact noFree.alike_shift
    refine .inr ⟨_, _, _, _, run, run', ⟨name'.trans name.symm, alike, ?_⟩, ⟨?_, allClosed, allClosed'⟩⟩
    · rw [scheme, scheme', Scheme.normalize_shift]
    · refine { mids with env := ?_, subst := Substitution.shift_empty.symm }
      rw [name, name']
      exact shifted.env.add _ alike.shifted

/-- Declarations are inferred alike from a later supply, with twins as results. -/
theorem inferAll_follows (limit : Nat) (declarations : List (Declaration Span)) :
    Follows (InferState.ShiftedClosed offset) (fun _ _ => True) (List.Forall₂ Twins) (inferAll limit declarations)
      (inferAll limit declarations) := by
  induction declarations with
  | nil => exact .pure .nil
  | cons declaration rest ih =>
    exact (infer_follows limit declaration).bind fun first first' twins =>
      ih.bind fun others others' twinsRest => .pure (.cons twins twinsRest)

/-- The same declarations are inferred alike from a later supply, in an environment that cannot be told apart. -/
theorem inferAll_of_le {checker other : Checker} {env env' : Environment} (alike : env.Rel Scheme.Alike env')
    (closed : env.All (Scheme.Closed checker.supply.issued)) (closed' : env'.All (Scheme.Closed other.supply.issued))
    (le : checker.supply.issued ≤ other.supply.issued) (declarations : List (Declaration Span)) :
    Except.Matches (fun _ _ => True) (List.Forall₂ Twins) (inferAll limit declarations (checker.start env)).1
      (inferAll limit declarations (other.start env')).1 := by
  obtain ⟨offset, later⟩ := Nat.exists_eq_add_of_le le
  have shifted : (checker.start env).Shifted offset (other.start env') :=
    ⟨alike.imp fun _ _ isAlike => isAlike.shifted, Substitution.shift_empty.symm,
      by simp [Checker.start, Supply.shift, ← later], rfl, rfl⟩
  rcases inferAll_follows limit declarations _ _ ⟨shifted, closed, closed'⟩ with
    ⟨error, error', after, after', ran, ran', _⟩ | ⟨typed, typed', after, after', ran, ran', twins, _⟩
  · exact .inl ⟨error, error', by rw [ran], by rw [ran'], trivial⟩
  · exact .inr ⟨typed, typed', by rw [ran], by rw [ran'], twins⟩

/-- Declarations get twin results wherever the schemes in scope are alike, whatever the supplies are. -/
theorem inferAll_alike {checker other : Checker} {env env' : Environment} (alike : env.Rel Scheme.Alike env')
    (closed : env.All (Scheme.Closed checker.supply.issued)) (closed' : env'.All (Scheme.Closed other.supply.issued))
    (declarations : List (Declaration Span)) :
    Except.Matches (fun _ _ => True) (List.Forall₂ Twins) (inferAll limit declarations (checker.start env)).1
      (inferAll limit declarations (other.start env')).1 := by
  rcases Nat.le_total checker.supply.issued other.supply.issued with le | le
  · exact inferAll_of_le alike closed closed' le declarations
  · have alike' : env'.Rel Scheme.Alike env := alike.symm.imp fun _ _ isAlike => isAlike.symm
    exact (inferAll_of_le alike' closed' closed le declarations).symm.imp fun _ _ twins =>
      twins.flip.imp fun _ _ isTwin => isTwin.symm

end Declaration

/-! ## Imports -/

/-- Results of a module that differ only in the numbers of variables. -/
def Module.Twins (typed other : Module Typed) : Prop :=
  List.Forall₂ Declaration.Twins typed.declarations other.declarations

/-- Both maps have a module under the key, and the two are twins. -/
def ModuleMap.TwinsAt (checked other : ModuleMap Typed) (key : String) : Prop :=
  ∃ typed typed', checked.get? key = some typed ∧ other.get? key = some typed' ∧ typed.Twins typed'

/-- Imports of twins bring schemes into scope that cannot be told apart. -/
theorem Environment.Rel.addImport {env other : Environment} (alike : env.Rel Scheme.Alike other) (entry : Import)
    {typed typed' : Module Typed} (twins : typed.Twins typed') :
    (env.addImport entry typed).Rel Scheme.Alike (other.addImport entry typed') := by
  rw [Environment.addImport, Environment.addImport]
  rw [Module.Twins] at twins
  generalize typed.declarations = declarations at twins
  generalize typed'.declarations = declarations' at twins
  induction twins generalizing env other with
  | nil => exact alike
  | cons isTwin _ ih =>
    refine ih ?_
    dsimp only
    rw [isTwin.name]
    split
    · exact (alike.add _ isTwin.alike).add _ isTwin.alike
    · exact alike.add _ isTwin.alike

theorem Prelude.environment_alike : environment.Rel Scheme.Alike environment := by
  have all := environment_all (values_closed 0)
  refine List.forall₂_same.mpr fun scope member name => ?_
  cases found : scope[name]? with
  | none => exact .none
  | some scheme => exact .some (Scheme.NoFree.alike (all scope member found).closed)

namespace Checker

variable {checked checked' : ModuleMap Typed} {key : String}

/-- If imports succeed in one checker, they succeed in another with twins of the imported modules. -/
theorem importAll_alike {imports : List Import} (twins : ∀ entry ∈ imports, checked.TwinsAt checked' entry.target)
    {env env' : Environment} (alike : env.Rel Scheme.Alike env') {result : Environment}
    (success : importAll checked key env imports = .ok result) :
    ∃ result', importAll checked' key env' imports = .ok result' ∧ result.Rel Scheme.Alike result' := by
  induction imports generalizing env env' with
  | nil =>
    cases success
    exact ⟨env', rfl, alike⟩
  | cons entry rest ih =>
    obtain ⟨⟨typed, typed', found, found', isTwin⟩, others⟩ := List.forall_mem_cons.mp twins
    rw [importAll, found] at success
    rw [importAll, found']
    exact ih others (alike.addImport entry isTwin) success

/-! ## Runs of the checker -/

open Declaration (soundness)

variable {checker other after after' : Checker} {modules others : ModuleMap Span} {result result' : ModuleMap Typed}

/-- A module that has been inferred once is inferred again wherever its imports are, with a twin result. -/
theorem checkModule_twins {module : Module Span} (settled : Settled soundness modules checker.limit result key)
    (found : modules.get? key = some module)
    (importable : soundness.Importable checker.supply.issued checker.checked)
    (imports : ∀ entry ∈ module.imports, result.TwinsAt checker.checked entry.target) :
    ∃ typed typed' after, result.get? key = some typed ∧ checkModule key module checker = (.ok typed', after) ∧
      typed.Twins typed' := by
  obtain ⟨_, typed, env, found', isResult, imported, good⟩ := settled
  obtain rfl := Option.some.inj (found.symm.trans found')
  obtain ⟨earlier, mid, closed, ran⟩ := good.run
  obtain ⟨env', imported', alike⟩ := importAll_alike imports Prelude.environment_alike imported
  have run := checkModule_of_imports checker good.unique imported'
  have closed' := Declaration.Law.global_of_importAll importable (soundness.prelude _) imported'
  have matching : Except.Matches (fun _ _ => True) (List.Forall₂ Declaration.Twins) _
      (Declaration.inferAll checker.limit module.declarations ((checker.checking key).start env')).1 :=
    Declaration.inferAll_alike alike closed (by exact closed') module.declarations
  rw [ran] at matching
  rcases ran' : Declaration.inferAll checker.limit module.declarations ((checker.checking key).start env') with
    ⟨_ | declarations, mid'⟩
  · rw [ran'] at matching
    rcases matching with ⟨_, _, ⟨⟩, _⟩ | ⟨_, _, _, ⟨⟩, _⟩
  · rw [ran'] at matching run
    rcases matching with ⟨_, _, ⟨⟩, _⟩ | ⟨_, _, ⟨⟩, ⟨⟩, twins⟩
    exact ⟨typed, _, _, isResult, run, twins⟩

/-- Modules in order, some of which have been inferred before by another checker. Those are inferred again with twin
results, whatever the others are. -/
theorem checkInOrder_twins (shared : String → Prop) (checker : Checker)
    (settled : ∀ key, shared key → Settled soundness modules checker.limit result key)
    (same : ∀ key, shared key → others.get? key = modules.get? key)
    (closed : ∀ key module, shared key → modules.get? key = some module → ∀ entry ∈ module.imports, shared entry.target)
    {done rest : List String} (ordered : others.Ordered (done ++ rest))
    (importable : soundness.Importable checker.supply.issued checker.checked)
    (twins : ∀ key ∈ done, shared key → result.TwinsAt checker.checked key) :
    ((∀ key ∈ rest, shared key) → (checkInOrder others rest checker).1 = .ok ()) ∧
      ((checkInOrder others rest checker).1 = .ok () →
        ∀ key ∈ done ++ rest, shared key → result.TwinsAt (checkInOrder others rest checker).2.checked key) := by
  induction rest generalizing done checker with
  | nil =>
    rw [List.append_nil]
    exact ⟨fun _ => rfl, fun _ => twins⟩
  | cons key rest ih =>
    obtain ⟨module, found⟩ := Option.isSome_iff_exists.mp (ordered.present key (by simp))
    have imports := ordered.imports rfl found
    have new : key ∉ done := fun member =>
      (List.nodup_append.mp ordered.nodup).2.2 key member key (List.mem_cons_self ..) rfl
    -- What a shared module imports is shared, and has twins already, so the module is inferred as it was before.
    have again (isShared : shared key) :=
      checkModule_twins (settled key isShared) (same key isShared ▸ found) importable
      fun entry inImports => twins _ (imports entry inImports)
        (closed key module isShared (same key isShared ▸ found) entry inImports)
    rw [checkInOrder_cons_run rest checker found]
    obtain ⟨unchanged, sameLimit, _, _⟩ := checkModule_run key module checker
    rcases ran : checkModule key module checker with ⟨error | typed, mid⟩
    · refine ⟨fun allShared => ?_, by rintro ⟨⟩⟩
      obtain ⟨_, _, _, _, run, _⟩ := again (allShared key (List.mem_cons_self ..))
      rw [ran] at run
      cases run
    · rw [ran] at unchanged sameLimit
      have twins' : ∀ other ∈ done ++ [key], shared other →
          result.TwinsAt (mid.checked.insert key typed) other := by
        intro other member isShared
        rcases List.mem_append.mp member with old | isKey
        · obtain ⟨first, second, inFirst, inSecond, isTwin⟩ := twins other old isShared
          refine ⟨first, second, inFirst, ?_, isTwin⟩
          rw [ModuleMap.get?_insert, if_neg fun isKey : other = key => new (isKey ▸ old), unchanged, inSecond]
        · obtain rfl := List.mem_singleton.mp isKey
          obtain ⟨first, second, _, inFirst, run, isTwin⟩ := again isShared
          rw [ran] at run
          cases run
          exact ⟨first, typed, inFirst, by rw [ModuleMap.get?_insert, if_pos rfl], isTwin⟩
      have run := ih { mid with checked := mid.checked.insert key typed }
        (by rwa [show mid.limit = checker.limit from sameLimit]) (by rwa [List.append_assoc])
        (importable_of_checkModule importable ran) twins'
      rw [List.append_assoc] at run
      exact ⟨fun allShared => run.1 fun other member => allShared other (List.mem_cons_of_mem _ member), run.2⟩

/-- Two successes have twin results for a module if it and all it imports are the same. -/
theorem twinsAt_of_checkModules (reachable : checker.Reachable) (reachable' : other.Reachable)
    (sameLimit : other.limit = checker.limit) (success : checkModules modules checker = (.ok result, after))
    (success' : checkModules others other = (.ok result', after')) (member : key ∈ modules.keys)
    (same : ∀ target, ReflTransGen modules.Imports key target → others.get? target = modules.get? target) :
    result.TwinsAt result' key := by
  obtain ⟨order, isOrder, _⟩ := of_checkModules success
  obtain ⟨order', isOrder', ran', rfl⟩ := of_checkModules success'
  obtain ⟨ordered, complete⟩ := ModuleMap.dependencyOrder_ordered isOrder
  obtain ⟨ordered', complete'⟩ := ModuleMap.dependencyOrder_ordered isOrder'
  have settled := (settled_of_checkModules soundness reachable success).2
  have inOrder : ∀ target, ReflTransGen modules.Imports key target → target ∈ order := by
    intro target reaches
    induction reaches with
    | refl => exact complete key member
    | tail _ imports ih => exact ordered.imports_mem ih imports
  have present : ∀ target, ReflTransGen modules.Imports key target → target ∈ modules.keys := by
    intro target reaches
    exact ModuleMap.mem_keys_of_contains (ordered.present target (inOrder target reaches))
  have isKey : key ∈ others.keys := by
    obtain ⟨module, found⟩ := Option.isSome_iff_exists.mp (ordered.present key (complete key member))
    exact ModuleMap.mem_keys_of_get? ((same key .refl).trans found)
  have run := checkInOrder_twins (ReflTransGen modules.Imports key) (other.ordering order')
    (fun target reaches => sameLimit ▸ settled target (present target reaches)) same
    (fun target module reaches found entry inImports => reaches.tail ⟨module, found, entry, inImports, rfl⟩)
    (show others.Ordered ([] ++ order') from ordered') (reachable'.importable soundness) (by simp)
  rw [ran'] at run
  obtain ⟨typed, typed', found, found', twins⟩ := run.2 rfl key (complete' key isKey) .refl
  exact ⟨typed, typed', found, by rw [ModuleMap.get?_filterMap, if_pos isKey, found'], twins⟩

/-- Whatever a checker can infer, any other one with its limit can infer too, if it is given the same modules. -/
theorem isOk_of_checkModules (reachable : checker.Reachable) (reachable' : other.Reachable)
    (sameLimit : other.limit = checker.limit) (same : ∀ key, others.get? key = modules.get? key)
    (success : (checkModules modules checker).1.isOk = true) : (checkModules others other).1.isOk = true := by
  rcases run : checkModules modules checker with ⟨_ | result, after⟩
  · rw [run] at success
    cases success
  · obtain ⟨order, isOrder, _⟩ := of_checkModules run
    obtain ⟨ordered, complete⟩ := ModuleMap.dependencyOrder_ordered isOrder
    have settled := (settled_of_checkModules soundness reachable run).2
    have present : ∀ key, others.contains key = true → key ∈ modules.keys := by
      intro key isKey
      rw [ModuleMap.contains, same] at isKey
      exact ModuleMap.mem_keys_of_contains isKey
    obtain ⟨order', isOrder'⟩ := ModuleMap.exists_dependencyOrder_iff.mpr ((ordered.congr same).orderable
      fun key member => complete key (present key (ModuleMap.contains_of_mem_keys member)))
    obtain ⟨ordered', _⟩ := ModuleMap.dependencyOrder_ordered isOrder'
    have ran := (checkInOrder_twins (· ∈ modules.keys) (other.ordering order')
      (fun key member => sameLimit ▸ settled key member)
      (fun key _ => same key)
      (fun key module member found entry inImports => by
        have imported := ordered.imports_mem (complete key member) ⟨module, found, entry, inImports, rfl⟩
        exact ModuleMap.mem_keys_of_contains (ordered.present _ imported))
      (show others.Ordered ([] ++ order') from ordered') (reachable'.importable soundness) (by simp)).1
      fun key member => present key (ordered'.present key member)
    rw [checkModules_of_order other isOrder']
    rcases last : checkInOrder others order' (other.ordering order') with ⟨_ | _, _⟩
    · rw [last] at ran
      cases ran
    · rfl

end Checker

namespace ModuleMap

/-- The schemes of a module's declarations, without the numbers of variables. -/
def schemesAt (checked : ModuleMap Typed) (key : String) : Option (List (String × Scheme)) :=
  (checked.get? key).map fun typed => typed.declarations.map fun declaration =>
    (declaration.name, declaration.info.scheme.normalize)

theorem TwinsAt.schemesAt_eq {checked other : ModuleMap Typed} {key : String} (twins : checked.TwinsAt other key) :
    other.schemesAt key = checked.schemesAt key := by
  obtain ⟨typed, typed', found, found', areTwins⟩ := twins
  rw [schemesAt, schemesAt, found, found', Option.map_some, Option.map_some, Option.some_inj]
  refine List.forall₂_eq_eq_eq ▸ ?_
  refine List.forall₂_map_left_iff.mpr (List.forall₂_map_right_iff.mpr (areTwins.flip.imp fun _ _ isTwin => ?_))
  exact Prod.ext isTwin.name isTwin.normal

/-- The order of entries does not matter for look-ups. -/
theorem get?_perm {ι : Type} {modules others : ModuleMap ι} (perm : modules.Perm others) (nodup : modules.keys.Nodup)
    (key : String) : others.get? key = modules.get? key := by
  induction perm with
  | nil => rfl
  | cons entry _ ih =>
    rw [get?_cons, get?_cons, ih (List.nodup_cons.mp nodup).2]
  | swap first second rest =>
    have different : second.1 ≠ first.1 := fun same => (List.nodup_cons.mp nodup).1 (by simp [same])
    rw [get?_cons, get?_cons, get?_cons, get?_cons]
    by_cases isFirst : key = first.1
    · rw [if_pos isFirst, if_neg (by rw [isFirst]; exact different.symm), if_pos isFirst]
    · rw [if_neg isFirst, if_neg isFirst]
  | trans first _ ih ih' =>
    exact (ih' ((first.map Prod.fst).nodup_iff.mp nodup)).trans (ih nodup)

end ModuleMap

namespace Checker

variable {checker other : Checker}

/-- The result of a module depends on it and on what it imports, directly or not: two successes give the same schemes to
its declarations, up to the numbers of variables, whatever other modules there are, in whatever order, and whatever the
two checkers have been asked before. Success itself does not depend on the order of the modules. -/
theorem checkModules_local (reachable : checker.Reachable) (reachable' : other.Reachable)
    (sameLimit : other.limit = checker.limit) :
    (∀ modules others result result' after after', checkModules modules checker = (.ok result, after) →
      checkModules others other = (.ok result', after') → ∀ key ∈ modules.keys,
        (∀ target, ReflTransGen modules.Imports key target → others.get? target = modules.get? target) →
        (result.schemesAt key).isSome = true ∧ result'.schemesAt key = result.schemesAt key) ∧
    (∀ modules others : ModuleMap Span, modules.keys.Nodup → modules.Perm others →
      ((checkModules modules checker).1.isOk = true ↔ (checkModules others other).1.isOk = true)) := by
  constructor
  · intro modules others result result' after after' success success' key member same
    have twins := twinsAt_of_checkModules reachable reachable' sameLimit success success' member same
    refine ⟨?_, twins.schemesAt_eq⟩
    obtain ⟨typed, _, found, _⟩ := twins
    rw [ModuleMap.schemesAt, found, Option.map_some, Option.isSome_some]
  · intro modules others nodup perm
    have same := ModuleMap.get?_perm perm nodup
    exact ⟨isOk_of_checkModules reachable reachable' sameLimit same,
      isOk_of_checkModules reachable' reachable sameLimit.symm fun key => (same key).symm⟩

theorem checkModules_local_importing : ∃ result result' after after',
    checkModules importing { limit := 4 } = (.ok result, after) ∧
    checkModules importing.reverse (checkExpr (.var {} "unknown") { limit := 4 }).2 = (.ok result', after') ∧
    result'.schemesAt "Use" = result.schemesAt "Use" := by
  have perm : importing.Perm importing.reverse := (List.reverse_perm importing).symm
  have nodup : importing.keys.Nodup := by decide
  obtain ⟨schemes, success⟩ := checkModules_local (.new 4) (.checkExpr (.var {} "unknown") (.new 4)) rfl
  obtain ⟨result, after, run⟩ := exists_eq_ok importing_isOk
  obtain ⟨result', after', run'⟩ := exists_eq_ok ((success importing importing.reverse nodup perm).mp importing_isOk)
  refine ⟨result, result', after, after', run, run', ?_⟩
  exact (schemes _ _ _ _ _ _ run run' "Use" (by decide) fun target _ => ModuleMap.get?_perm perm nodup target).2

end Checker

end RowInference
