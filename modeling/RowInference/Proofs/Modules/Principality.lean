import RowInference.Proofs.Inference.Guidance.Expressions
import RowInference.Proofs.Modules.Rows

/-! # Principality

If an expression can be given consistent types at all, then a checker finds types for it, and the most general ones: one
choice of types for their variables makes all of them those that were given.
-/

namespace RowInference

/-! ## The choice of types -/

namespace Layout

variable {layout : Layout} {valuation : Valuation}

/-- The types of the variables that are left. -/
def solution (layout : Layout) (valuation : Valuation) (id : VarId) : Ty :=
  match layout.current id with
  | some kind => valuation.value ⟨id, kind.constraint⟩
  | none => .unit

/-- The type of a variable that is left is its value. -/
theorem solution_of_kinded {type : Ty} (kinded : type.Kinded layout.current) {v : TypeVar}
    (inType : v ∈ type.occurrences) : layout.solution valuation v.id = valuation.value v := by
  obtain ⟨kind, isKind, sameConstraint⟩ := kinded.kind_of_occurs inType
  rw [solution, isKind]
  dsimp only
  rw [sameConstraint]

theorem mapVars_solution {type : Ty} (kinded : type.Kinded layout.current) :
    (type.mapVars fun v => layout.solution valuation v.id) = type.read valuation :=
  Ty.mapVars_congr fun _ inType => solution_of_kinded kinded inType

/-- The types of the variables that are left keep to their constraints. -/
theorem SolvedBy.meets (solvedBy : layout.SolvedBy valuation) {type : Ty} (kinded : type.Kinded layout.current)
    {v : TypeVar} (inType : v ∈ type.occurrences) : (layout.solution valuation v.id).Meets v.constraint := by
  rw [solution_of_kinded kinded inType]
  obtain ⟨kind, isKind, sameConstraint⟩ := kinded.kind_of_occurs inType
  have admitted := solvedBy.admits.values isKind
  rw [sameConstraint] at admitted
  cases kind with
  | plain constraint =>
    obtain rfl : constraint = v.constraint := sameConstraint
    exact admitted
  | tail fields =>
    rw [← show none = v.constraint from sameConstraint]
    exact Ty.meets_none _

/-- The node of an inferred tree, once it is completed, is made by the choice of types what it reads as. -/
structure Completes (layout : Layout) (valuation : Valuation) (completed info : Typed) : Prop where
  plain : completed.scheme.isMono = true
  meets : ∀ v ∈ completed.type.occurrences, (layout.solution valuation v.id).Meets v.constraint
  chosen : Typed.mono completed.span (completed.type.mapVars fun v => layout.solution valuation v.id) =
    info.read valuation

/-- A node with a plain type is completed to one that the choice of types makes what it reads as. -/
theorem SolvedBy.completes (solvedBy : layout.SolvedBy valuation) {issued : Nat} (sound : layout.Sound issued)
    {info : Typed} (plain : info.scheme.binders = []) (kinded : info.type.Kinded layout.declared) :
    layout.Completes valuation (info.resolve layout.subst) info := by
  have resolved := sound.apply_kinded kinded
  rw [← Typed.type_resolve plain] at resolved
  refine ⟨List.isEmpty_iff.mpr ?_, fun v inType => solvedBy.meets resolved inType, ?_⟩
  · rw [Typed.resolve, Substitution.applyScheme, plain]
  · rw [mapVars_solution resolved, Typed.type_resolve plain, sound.read_apply solvedBy kinded]
    rfl

/-- With nothing learnt there is nothing to solve. -/
theorem start_solvedBy (issued : Nat) {valuation : Valuation} (flat : valuation.Flat) :
    (start issued).SolvedBy valuation where
  admits := ⟨flat, fun _ _ known => absurd rfl known, fun _ _ isKind => by cases isKind⟩
  solved _ _ bound := by simp [start] at bound

end Layout

/-! ## Runs on annotated expressions -/

namespace Expr

variable {limit : Nat} {state mid : InferState}

/-- An expression that stands alone is inferred and then completed. -/
theorem inferClosed_of_infer {expr : Expr Span} {typed : Expr Typed}
    (ran : expr.infer limit { state with subst := {} } = (.ok typed, mid)) :
    expr.inferClosed limit state = (.ok (typed.mapInfo (Typed.resolve mid.subst)), { mid with subst := {} }) := by
  rw [inferClosed_run, ran]

/-- An annotated expression is inferred, and the result reads as annotated. -/
theorem infer_guided {given : Expr Typed} (tailless : state.env.All Scheme.Tailless)
    (ok : given.WellTyped state.env.get?) (regular : ∀ info ∈ given.infos, info.Regular)
    (shallow : state.depth + given.height ≤ limit) :
    ∃ typed mid last valuation, (given.mapInfo Typed.span).infer limit { state with subst := {} } = (.ok typed, mid) ∧
      mid.subst = last.subst ∧ last.Sound mid.supply.issued ∧ last.SolvedBy valuation ∧
      Layout.discipline.FineInfos last typed.infos ∧ typed.ReadsAs valuation mid.supply.issued given := by
  let identity : Valuation := ⟨.var, fun _ => trivial⟩
  have flat : identity.Flat := fun _ => trivial
  have inv : Layout.discipline.Inv (.start state.supply.issued) { state with subst := {} } :=
    ⟨⟨rfl, Layout.start_sound _⟩, tailless.imp fun _ schemeTailless => schemeTailless.kinded _⟩
  have attains : ((given.mapInfo Typed.span).script limit).Attains state.depth identity state.scene
      fun later after typed => typed.ReadsAs later after.issued given :=
    script_guided limit given regular shallow (.of_tailless tailless flat _) ok fun _ _ _ _ reads => reads
  have safe : ((given.mapInfo Typed.span).script limit).Safe Layout.discipline (.start state.supply.issued) state.scene
      fun last _ typed => Layout.discipline.FineInfos last typed.infos :=
    script_walks limit _ fun _ _ _ _ _ fine => fine
  obtain ⟨typed, mid, last, valuation, done⟩ := Script.Attains.succeeds _ (by exact attains) (by exact safe) inv
    (Layout.start_solvedBy _ flat)
  obtain ⟨learnt, sound⟩ := done.inv.holds
  exact ⟨typed, mid, last, valuation, done.run, learnt, sound, done.solvedBy, done.safe, done.attains⟩

end Expr

namespace Checker

/-- Inference is principal. An expression that is not too high and that has consistent types, regular ones on all
nodes, is accepted, and one choice of types for variables, within their classes, makes the inferred types the given
ones. -/
theorem checkExpr_principal (checker : Checker) (expr : Expr Span) (shallow : expr.height ≤ checker.limit)
    (given : Expr Typed) (source : given.mapInfo Typed.span = expr)
    (ok : given.WellTyped Prelude.environment.get?) (regular : ∀ info ∈ given.infos, info.Regular) :
    ∃ result after, checkExpr expr checker = (.ok result, after) ∧ ∃ choice : VarId → Ty,
      (∀ info ∈ result.infos, info.scheme.isMono = true ∧
        ∀ v ∈ info.type.occurrences, (choice v.id).Meets v.constraint) ∧
      result.mapInfo (fun info => .mono info.span (info.type.mapVars fun v => choice v.id)) = given := by
  subst source
  have tailless : (checker.start Prelude.environment).env.All Scheme.Tailless :=
    Prelude.environment_all Prelude.values_tailless
  have low : (checker.start Prelude.environment).depth + given.height ≤ checker.limit := by
    rw [Expr.height_mapInfo] at shallow
    exact (Nat.zero_add _).trans_le shallow
  obtain ⟨typed, mid, last, valuation, ran, learnt, sound, solvedBy, fine, reads⟩ :=
    Expr.infer_guided tailless ok regular low
  have completes : ∀ info ∈ typed.infos, last.Completes valuation (info.resolve mid.subst) info := by
    intro info member
    rw [learnt]
    exact solvedBy.completes sound (fine info member).1 (fine info member).2
  have run : checkExpr (given.mapInfo Typed.span) checker = (.ok (typed.mapInfo (Typed.resolve mid.subst)),
      { checker with supply := mid.supply, events := mid.events }) := by
    rw [checkExpr, CheckM.infer_run, Expr.inferClosed_of_infer ran]
    rfl
  refine ⟨_, _, run, last.solution valuation, ?_, ?_⟩
  · rw [Expr.infos_mapInfo, List.forall_mem_map]
    exact fun info member => ⟨(completes info member).plain, (completes info member).meets⟩
  · rw [Expr.mapInfo_mapInfo, ← reads.read]
    exact typed.mapInfo_congr fun info member => (completes info member).chosen

/-- A record with two fields that may have more. -/
def openPoint : Ty := .extension (.var (TypeVar.named "rest")) (Row.ofList [("x", .int), ("y", .float)])

/-- The function `\p -> p.x` on such records. Its inferred type knows of the first field only. -/
def abscissa : Expr Typed :=
  .lambda (.mono {} (.function openPoint .int)) [.var (.mono {} openPoint) "p"]
    (.access (.mono {} .int) (.var (.mono {} openPoint) "p") "x")

theorem openPoint_regular : openPoint.Regular where
  canonical := ⟨trivial, Row.ofList_canonical (by simp [Ty.Canonical])⟩
  extended := by
    have parts : openPoint.extensions = [(.var (.named "rest"), Row.ofList [("x", .int), ("y", .float)])] := by decide
    rw [parts, List.forall_mem_singleton]
    exact ⟨⟨_, rfl⟩, by decide⟩

theorem checkExpr_principal_abscissa : abscissa.WellTyped Prelude.environment.get? ∧
    ∃ result after, checkExpr (abscissa.mapInfo Typed.span) { limit := 4 } = (.ok result, after) ∧
      ∃ choice : VarId → Ty,
        result.mapInfo (fun info => .mono info.span (info.type.mapVars fun v => choice v.id)) = abscissa := by
  have bound : Expr.WellTyped (Context.addAll Prelude.environment.get? [("p", openPoint)])
      (.var (.mono {} openPoint) "p") := .var rfl (Scheme.instance_mono openPoint_regular.flat)
  have ok : abscissa.WellTyped Prelude.environment.get? :=
    .lambda (by simp [Pattern.WellTyped.var]) (List.nodup_singleton _) (.access bound rfl) rfl
  have regular : ∀ info ∈ abscissa.infos, info.Regular := by
    have plain : ∀ type : Ty, type.Regular → (Typed.mono {} type).Regular := fun _ regular => ⟨rfl, regular⟩
    have number : Ty.int.Regular := ⟨trivial, by simp [Ty.extensions]⟩
    have point := openPoint_regular
    simp [abscissa, Expr.infos, Pattern.infosOf, Pattern.infos, plain, number, point, point.function number]
  obtain ⟨result, after, run, choice, _, chosen⟩ :=
    checkExpr_principal { limit := 4 } _ (by decide) abscissa rfl ok regular
  exact ⟨ok, result, after, run, choice, chosen⟩

end Checker

end RowInference
