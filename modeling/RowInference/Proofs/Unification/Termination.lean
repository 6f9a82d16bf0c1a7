import RowInference.Proofs.Unification.Balance
import RowInference.Proofs.Unification.Completeness
import RowInference.Proofs.Unification.Unifier

/-! # Unification ends

The rounds that unification is given are never used up. A step under a non-empty substitution uses one round, and it is
about fewer variables than the types were before. The exception is a shared tail, which is new; in the equation that it
comes from it stands at the end of an open row, and there it can only be bound or be replaced by another new one. So as
many rounds as there are variables, and one more, are enough, and further rounds make no difference.
-/

namespace RowInference

open Substitution (singleton)

/-! ## Computations that do not use up their rounds -/

/-- The computation ends with a result, or with a reason why there is none. -/
def UnifyM.Concludes {α : Type} (action : UnifyM α) (supply : Supply) : Prop :=
  ∀ expected actual, (action supply).1 ≠ .error (.unsettled expected actual)

namespace UnifyM

variable {α β : Type} {action : UnifyM α} {next : α → UnifyM β} {supply : Supply}

theorem concludes_pure (value : α) (supply : Supply) : Concludes (pure value) supply := by
  intro expected actual failed
  cases failed

theorem concludes_liftExcept {result : Except UnifyError α}
    (reason : ∀ expected actual, result ≠ .error (.unsettled expected actual)) (supply : Supply) :
    Concludes (liftExcept result) supply := by
  cases result with
  | error error => exact fun expected actual failed => reason expected actual failed
  | ok value => exact concludes_pure value supply

/-- Two steps conclude if the first does, and the second after every success of the first. -/
theorem concludes_bind : (action >>= next).Concludes supply ↔
    action.Concludes supply ∧ ∀ value after, action supply = (.ok value, after) → (next value).Concludes after := by
  rw [Concludes, bind_run]
  rcases ran : action supply with ⟨error | value, after⟩
  · constructor
    · intro concludes
      refine ⟨fun expected actual failed => concludes expected actual ?_, fun value after impossible => ?_⟩
      · rw [ran] at failed
        cases failed
        rfl
      · cases impossible
    · rintro ⟨concludes, _⟩ expected actual failed
      refine concludes expected actual ?_
      rw [ran]
      cases failed
      rfl
  · constructor
    · intro concludes
      refine ⟨fun expected actual failed => ?_, fun value' after' same => ?_⟩
      · rw [ran] at failed
        cases failed
      · cases same
        exact concludes
    · rintro ⟨_, later⟩
      exact later value after rfl

end UnifyM

open UnifyM

/-- Only a lack of rounds leaves an equation unsettled. -/
theorem unifyVars_ne_unsettled (left right : TypeVar) (expected actual : Ty) :
    unifyVars left right ≠ .error (.unsettled expected actual) := by
  intro failed
  rw [unifyVars] at failed
  split at failed
  · cases failed
  · split at failed
    · cases failed
    · cases failed
    · split at failed <;> cases failed

theorem bindVar_ne_unsettled (v : TypeVar) (type : Ty) (equation : Equation) (expected actual : Ty) :
    bindVar v type equation ≠ .error (.unsettled expected actual) := by
  intro failed
  rw [bindVar] at failed
  split at failed
  · cases failed
  · split at failed
    · cases failed
    · split at failed <;> cases failed

theorem tailEquations_ne_unsettled (shared left right expected actual : Ty) :
    tailEquations shared left right ≠ .error (.unsettled expected actual) := by
  intro failed
  simp only [tailEquations] at failed
  split at failed
  · split at failed <;> cases failed
  · split at failed <;> cases failed
  · split at failed <;> cases failed
  · split at failed
    · split at failed <;> cases failed
    · split at failed <;> cases failed

/-- An equation with a variable needs no rounds. -/
theorem concludes_var_left (rounds : Nat) (v : TypeVar) (actual : Ty) (supply : Supply) :
    (unifyWithin rounds (.var v) actual).Concludes supply := by
  by_cases isVar : ∃ u, actual = .var u
  · obtain ⟨u, rfl⟩ := isVar
    rw [unifyWithin]
    exact concludes_liftExcept (unifyVars_ne_unsettled v u) supply
  · rw [unifyWithin]
    · exact concludes_liftExcept (bindVar_ne_unsettled v actual _) supply
    · exact fun u same => isVar ⟨u, same⟩

theorem concludes_var_right (rounds : Nat) (expected : Ty) (v : TypeVar) (supply : Supply) :
    (unifyWithin rounds expected (.var v)).Concludes supply := by
  by_cases isVar : ∃ u, expected = .var u
  · obtain ⟨u, rfl⟩ := isVar
    exact concludes_var_left rounds u _ supply
  · rw [unifyWithin]
    · exact concludes_liftExcept (bindVar_ne_unsettled v expected _) supply
    · exact fun u same => isVar ⟨u, same⟩

theorem fieldEquations_sameTail {v : TypeVar} {left right : Row} (disjoint : left.Disjoint right) :
    fieldEquations ((Ty.var v).openRow left) ((Ty.var v).openRow right) = [] := by
  rw [List.eq_nil_iff_forall_not_mem]
  intro equation member
  obtain ⟨pair, inCommon, rfl⟩ := List.mem_map.mp member
  obtain ⟨key, inLeft, inRight⟩ := Row.mem_common inCommon
  have names := Ty.contains_rowParts_openRow v
  have absent := disjoint.congr (names left) (names right) key (Option.isSome_iff_exists.mpr ⟨_, inRight⟩)
  rw [Row.contains_of_mem_toList inLeft] at absent
  cases absent

/-- An equation for a shared tail needs no rounds: the rows on both sides have no field in common. -/
theorem Shallow.concludes {expected actual : Ty} (shallow : Shallow expected actual) (rounds : Nat) (supply : Supply) :
    (unifyWithin rounds expected actual).Concludes supply := by
  cases shallow with
  | fresh => exact concludes_var_right rounds expected _ supply
  | record notRecord record =>
    by_cases isVar : ∃ u, expected = .var u
    · obtain ⟨u, rfl⟩ := isVar
      exact concludes_var_left rounds u _ supply
    · have notRecords : ¬(expected.isRecord = true ∧ actual.isRecord = true) := by simp [notRecord]
      have different : ¬(expected.isAtom = true ∧ expected = actual) := by
        rintro ⟨_, rfl⟩
        exact notRecords ⟨record, record⟩
      rw [unifyWithin, dif_neg notRecords, if_neg different]
      · intro left right failed
        cases failed
      all_goals
        intros
        subst_vars
        first
        | exact isVar ⟨_, rfl⟩
        | cases record
  | @sameTail v left right disjoint extra =>
    by_cases leftEmpty : left = .empty
    · subst leftEmpty
      exact concludes_var_left rounds v _ supply
    by_cases rightEmpty : right = .empty
    · subst rightEmpty
      exact concludes_var_right rounds _ v supply
    have refused := fun shared => tailEquations_sameTail (v := v) disjoint extra shared
    have noFields := fieldEquations_sameTail (v := v) disjoint
    rw [Ty.openRow_of_ne _ leftEmpty, Ty.openRow_of_ne _ rightEmpty] at refused noFields ⊢
    rw [unifyWithin_of_isRecord rounds rfl rfl, noFields, solve]
    refine concludes_bind.mpr ⟨concludes_pure _ _, ?_⟩
    rintro fields ⟨issued⟩ _
    refine concludes_bind.mpr ⟨?_, fun shared _ _ => ?_⟩
    · intro _ _ failed
      rw [sharedTail_run] at failed
      cases failed
    · rw [refused]
      refine concludes_bind.mpr ⟨concludes_liftExcept (fun _ _ failed => by cases failed) _, ?_⟩
      intro equations after planned
      cases planned

/-! ## Solving equations -/

/-- Equations conclude if the first one does, with a round less if something has been found, and then the others. -/
theorem solve_cons_concludes {rounds issued : Nat} {solved : Substitution} {equation : Equation} {rest : List Equation}
    (atOnce : solved = {} → (unifyWithin rounds equation.expected equation.actual).Concludes ⟨issued⟩)
    (applied : solved ≠ {} → ∃ fewer, rounds = fewer + 1 ∧
      (unifyWithin fewer (solved.apply equation.expected) (solved.apply equation.actual)).Concludes ⟨issued⟩)
    (later : ∀ found issued',
      Unified issued (solved.apply equation.expected) (solved.apply equation.actual) found issued' →
      (solve rounds (found.compose solved) rest).Concludes ⟨issued'⟩) :
    (solve rounds solved (equation :: rest)).Concludes ⟨issued⟩ := by
  rw [solve.eq_def]
  dsimp only
  by_cases empty : solved = {}
  · subst empty
    rw [if_pos Std.ExtTreeMap.isEmpty_empty]
    refine concludes_bind.mpr ⟨atOnce rfl, fun found after ran => later found after.issued ?_⟩
    rw [Substitution.apply_empty, Substitution.apply_empty]
    exact unified_of_run.1 _ _ _ _ _ _ ran
  · obtain ⟨fewer, rfl, concludes⟩ := applied empty
    rw [if_neg (by simpa using empty)]
    exact concludes_bind.mpr ⟨concludes, fun found after ran =>
      later found after.issued (unified_of_run.1 _ _ _ _ _ _ ran)⟩

theorem solve_nil_concludes (rounds : Nat) (solved : Substitution) (supply : Supply) :
    (solve rounds solved []).Concludes supply := by
  rw [solve]
  exact concludes_pure _ _

/-- The type is over these variables, or it is an open row over them on another variable. -/
def Ty.Loose (live : Finset VarId) (issued : Nat) (type : Ty) : Prop :=
  type.Over live ∨ ∃ (v : TypeVar) (fields : Row), type = (Ty.var v).openRow fields ∧ fields.Over live ∧ v.id ∉ live ∧
    v.Below issued

/-- Unification concludes if there is a round for each variable and one more. -/
def ConcludesWithin (rounds : Nat) (expected actual : Ty) : Prop :=
  ∀ ⦃live : Finset VarId⦄ ⦃issued : Nat⦄, AllIssued live issued → expected.Over live → actual.Loose live issued →
    live.card < rounds → (unifyWithin rounds expected actual).Concludes ⟨issued⟩

/-- Each step concludes, whatever the steps before it have found. -/
def StepsConclude (rounds : Nat) : Substitution → List Equation → Prop
  | _, [] => True
  | solved, equation :: rest => ConcludesWithin rounds equation.expected equation.actual ∧
    (∀ fewer, rounds = fewer + 1 →
      ConcludesWithin fewer (solved.apply equation.expected) (solved.apply equation.actual)) ∧
    ∀ found : Substitution, StepsConclude rounds (found.compose solved) rest

section Loose

variable {live : Finset VarId} {issued : Nat} {type : Ty}

theorem Ty.Loose.fields (loose : type.Loose live issued) : type.rowParts.1.Over live := by
  rcases loose with inside | ⟨v, fields, rfl, inside, _⟩
  · exact inside.fields
  · have none : Row.empty.Over live := by simp [Row.Over, Row.occurrences]
    rw [Ty.openRow]
    split
    · exact none
    · exact none.extend inside

theorem Ty.Loose.tail (loose : type.Loose live issued) {tail : Ty} (isTail : type.rowParts.2 = some tail) :
    tail.Over live ∨ ∃ v : TypeVar, tail = .var v ∧ v.id ∉ live ∧ v.Below issued := by
  rcases loose with inside | ⟨v, fields, rfl, _, outside, below⟩
  · exact .inl (inside.tail isTail)
  · rw [Ty.rowParts_openRow_tail] at isTail
    cases isTail
    exact .inr ⟨v, rfl, outside, below⟩

theorem Ty.Loose.over_of_components (loose : type.Loose live issued) {expected : Ty} {equations : List Equation}
    (split : expected.components type = some equations) : type.Over live := by
  rcases loose with inside | ⟨v, fields, rfl, _⟩
  · exact inside
  · rw [Ty.openRow] at split
    split at split <;> cases expected <;> cases split

end Loose

/-- Solving equations keeps what was found balanced. -/
theorem Solution.balanced {live : Finset VarId} {start issued issued' : Nat} {solved result : Substitution}
    {equations : List Equation} (solution : Solution issued solved equations result issued')
    (below : AllIssued live start) (balanced : Balanced live start solved issued)
    (inside : ∀ equation ∈ equations, equation.Over live) : Balanced live start result issued' := by
  induction equations generalizing issued solved with
  | nil => cases solution; exact balanced
  | cons equation rest ih =>
    cases solution with
    | step first later =>
      obtain ⟨expectedOver, actualOver⟩ := inside _ (List.mem_cons_self ..)
      have next := first.balanced (below.left balanced.issues)
        (balanced.apply_over (expectedOver.mono subset_pool)) (balanced.apply_over (actualOver.mono subset_pool))
      exact ih later (balanced.compose below next) fun other inRest => inside other (List.mem_cons_of_mem _ inRest)

/-- With every binding fewer variables are left, and the rounds last as long as there are any. -/
theorem StepsConclude.solve_concludes {live : Finset VarId} {rounds start issued : Nat} {solved : Substitution}
    {equations : List Equation} (steps : StepsConclude rounds solved equations) (below : AllIssued live start)
    (balanced : Balanced live start solved issued) (inside : ∀ equation ∈ equations, equation.Over live)
    (enough : live.card < rounds) : (solve rounds solved equations).Concludes ⟨issued⟩ := by
  induction equations generalizing issued solved with
  | nil => exact solve_nil_concludes _ _ _
  | cons equation rest ih =>
    obtain ⟨atOnce, applied, later⟩ := steps
    obtain ⟨expectedOver, actualOver⟩ := inside _ (List.mem_cons_self ..)
    have expectedLeft := balanced.apply_over (expectedOver.mono subset_pool)
    have actualLeft := balanced.apply_over (actualOver.mono subset_pool)
    refine solve_cons_concludes ?_ ?_ ?_
    · rintro rfl
      exact atOnce (below.mono balanced.issues) expectedOver (.inl actualOver) enough
    · intro nonempty
      obtain ⟨fewer, rfl⟩ := Nat.exists_eq_succ_of_ne_zero (Nat.ne_zero_of_lt enough)
      have := balanced.card_remaining_lt nonempty
      exact ⟨fewer, rfl, applied fewer rfl (below.left balanced.issues) expectedLeft (.inl actualLeft) (by omega)⟩
    · intro found issued' unified
      have next := unified.balanced (below.left balanced.issues) expectedLeft actualLeft
      exact ih (later found) (balanced.compose below next) fun other inRest =>
        inside other (List.mem_cons_of_mem _ inRest)

/-! ## Tails -/

section Tails

variable {live : Finset VarId} {rounds start issued : Nat} {fields : Substitution} {leftTail rightTail : Ty}
  {forLeft forRight : Row}

/-- A variable that is not among the live ones is not bound. -/
theorem Confined.value_outside (confined : Confined live start fields issued) {v : TypeVar} (outside : v.id ∉ live)
    (below : v.Below start) : fields.apply (.var v) = .var v := by
  refine Substitution.value_of_none (confined.unbound fun inPool => ?_)
  rcases mem_pool.mp inPool with inLive | ⟨index, above, _, same⟩
  · exact outside inLive
  · have := below index same
    omega

/-- The equation that puts a tail in terms of the shared one. -/
theorem StepsConclude.first_concludes {rest : List Equation}
    (steps : StepsConclude rounds fields (⟨leftTail, (Ty.var (.generated issued)).openRow forLeft⟩ :: rest))
    (below : AllIssued live start) (balanced : Balanced live start fields issued)
    (leftNotRecord : leftTail.isRecord = false) (leftOver : leftTail.Over live) (forLeftOver : forLeft.Over live)
    (enough : live.card < rounds)
    (later : ∀ found issued', Unified (issued + 1) (fields.apply leftTail)
      (fields.apply ((Ty.var (.generated issued)).openRow forLeft)) found issued' →
      (solve rounds (found.compose fields) rest).Concludes ⟨issued'⟩) :
    (solve rounds fields (⟨leftTail, (Ty.var (.generated issued)).openRow forLeft⟩ :: rest)).Concludes
    ⟨issued + 1⟩ := by
  have new := below.not_mem_pool balanced.issues
  refine solve_cons_concludes ?_ ?_ later
  · rintro rfl
    refine Shallow.concludes ?_ _ _
    by_cases empty : forLeft = .empty
    · subst empty
      refine .fresh leftNotRecord ?_
      rintro u rfl
      exact leftOver.ne_of_not_mem (fun inLive => new (subset_pool inLive)) u (List.mem_singleton_self u)
    · rw [Ty.openRow_of_ne _ empty]
      exact .record leftNotRecord rfl
  · intro nonempty
    obtain ⟨fewer, rfl⟩ := Nat.exists_eq_succ_of_ne_zero (Nat.ne_zero_of_lt enough)
    have fewerLeft := balanced.card_remaining_lt nonempty
    have fieldsOver : (Ty.record (fields.applyRow forLeft)).Over (remaining live start fields issued) := by
      rw [← Substitution.apply_record]
      exact balanced.apply_over (forLeftOver.mono subset_pool)
    refine ⟨fewer, rfl, steps.2.1 fewer rfl ((below.left balanced.issues).mono (Nat.le_succ _))
      (balanced.apply_over (leftOver.mono subset_pool)) (.inr ?_) (by omega)⟩
    refine ⟨.generated issued, fields.applyRow forLeft,
      Substitution.apply_openRow_of_none (balanced.unbound new) forLeft, fieldsOver,
      fun inLeft => new (Finset.sdiff_subset inLeft), ?_⟩
    intro index same
    cases same
    exact Nat.lt_succ_self _

/-- The two equations for a shared tail. -/
theorem StepsConclude.shared_concludes
    (steps : StepsConclude rounds fields [⟨leftTail, (Ty.var (.generated issued)).openRow forLeft⟩,
      ⟨rightTail, (Ty.var (.generated issued)).openRow forRight⟩])
    (below : AllIssued live start) (balanced : Balanced live start fields issued)
    (leftNotRecord : leftTail.isRecord = false) (rightNotRecord : rightTail.isRecord = false)
    (leftOver : leftTail.Over live)
    (rightOver : rightTail.Over live ∨ ∃ v : TypeVar, rightTail = .var v ∧ v.id ∉ live ∧ v.Below start)
    (forLeftOver : forLeft.Over live) (forRightOver : forRight.Over live) (disjoint : forLeft.Disjoint forRight)
    (extra : ¬(forLeft = .empty ∧ forRight = .empty)) (enough : live.card < rounds) :
    (solve rounds fields [⟨leftTail, (Ty.var (.generated issued)).openRow forLeft⟩,
      ⟨rightTail, (Ty.var (.generated issued)).openRow forRight⟩]).Concludes ⟨issued + 1⟩ := by
  refine steps.first_concludes below balanced leftNotRecord leftOver forLeftOver enough ?_
  intro first shared unified
  have wider := balanced.toConfined.mono (Nat.le_succ _)
  have firstBinds := balanced.first_binds below leftOver unified
  have ofFirst := unified.balanced (below.left wider.issues) (wider.apply_over (leftOver.mono subset_pool))
    (wider.apply_over (balanced.openRow_over forLeftOver))
  have both := wider.compose below ofFirst.toConfined
  refine solve_cons_concludes ?_ ?_ fun _ _ _ => solve_nil_concludes _ _ _
  -- The first tail has been bound, so the second equation takes a round.
  · intro nothing
    exact absurd (Substitution.compose_eq_empty.mp nothing).2 firstBinds
  · intro _
    obtain ⟨fewer, rfl⟩ := Nat.exists_eq_succ_of_ne_zero (Nat.ne_zero_of_lt enough)
    refine ⟨fewer, rfl, ?_⟩
    rcases rightOver with rightOver | ⟨v, rfl, outside, old⟩
    -- If the fields bound nothing there may be one round too few, but then the second equation needs no further one.
    · by_cases nothing : fields = {}
      · subst nothing
        have new : VarId.generated issued ∉ live :=
          fun inLive => below.not_mem_pool balanced.issues (subset_pool inLive)
        rw [Substitution.apply_empty, Substitution.apply_empty] at unified
        rw [Substitution.compose_empty]
        exact (unified.second_shallow leftNotRecord rightNotRecord (leftOver.ne_of_not_mem new)
          (rightOver.ne_of_not_mem new) disjoint extra).concludes _ _
      · have := both.card_remaining
        have := wider.card_compose below ofFirst.toConfined
        have := balanced.gains_of_ne nothing
        have := ofFirst.gains_of_ne firstBinds
        have := balanced.issues
        have := ofFirst.issues
        exact (steps.2.2 first).2.1 fewer rfl (below.left both.issues) (both.apply_over (rightOver.mono subset_pool))
          (.inl (both.apply_over ((balanced.openRow_over forRightOver).mono (pool_mono ofFirst.issues)))) (by omega)
    · dsimp only
      rw [both.value_outside outside old]
      exact concludes_var_left _ _ _ _

/-- The equations for the tails of two records conclude, also where they get a shared tail. -/
theorem StepsConclude.tails_conclude {left right : Row} {leftTail rightTail : Option Ty} {equations : List Equation}
    (steps : StepsConclude rounds fields equations)
    (plan : TailPlan (.var (.generated issued)) left right leftTail rightTail equations)
    (below : AllIssued live start) (balanced : Balanced live start fields issued) (leftOver : left.Over live)
    (rightOver : right.Over live) (leftTailOver : ∀ tail, leftTail = some tail → tail.isRecord = false ∧ tail.Over live)
    (rightTailOver : ∀ tail, rightTail = some tail → tail.isRecord = false ∧
      (tail.Over live ∨ ∃ v : TypeVar, tail = .var v ∧ v.id ∉ live ∧ v.Below start))
    (enough : live.card < rounds) :
    (solve rounds fields equations).Concludes ⟨if equations.length = 2 then issued + 1 else issued⟩ := by
  have someRound : ∃ fewer, rounds = fewer + 1 := Nat.exists_eq_succ_of_ne_zero (Nat.ne_zero_of_lt enough)
  cases plan with
  | closed | same => exact solve_nil_concludes _ _ _
  | closedRight =>
    refine steps.solve_concludes below balanced ?_ enough
    exact List.forall_mem_singleton.mpr ⟨(leftTailOver _ rfl).2, rightOver.without left⟩
  | closedLeft =>
    rcases (rightTailOver _ rfl).2 with tailOver | ⟨v, rfl, outside, old⟩
    · refine steps.solve_concludes below balanced ?_ enough
      exact List.forall_mem_singleton.mpr ⟨tailOver, leftOver.without right⟩
    · refine solve_cons_concludes (fun _ => concludes_var_left _ _ _ _) (fun _ => ?_)
        fun _ _ _ => solve_nil_concludes _ _ _
      obtain ⟨fewer, rfl⟩ := someRound
      refine ⟨fewer, rfl, ?_⟩
      dsimp only
      rw [balanced.value_outside outside old]
      exact concludes_var_left _ _ _ _
  | meet =>
    rcases (rightTailOver _ rfl).2 with tailOver | ⟨v, rfl, outside, old⟩
    · refine steps.solve_concludes below balanced ?_ enough
      exact List.forall_mem_singleton.mpr ⟨(leftTailOver _ rfl).2, tailOver⟩
    · refine solve_cons_concludes (fun _ => concludes_var_right _ _ _ _) (fun _ => ?_)
        fun _ _ _ => solve_nil_concludes _ _ _
      obtain ⟨fewer, rfl⟩ := someRound
      refine ⟨fewer, rfl, ?_⟩
      dsimp only
      rw [balanced.value_outside outside old]
      exact concludes_var_right _ _ _ _
  | shared _ extra =>
    exact steps.shared_concludes below balanced (leftTailOver _ rfl).1 (rightTailOver _ rfl).1 (leftTailOver _ rfl).2
      (rightTailOver _ rfl).2 (rightOver.without left) (leftOver.without right)
        (Row.without_disjoint_without left right)
      (fun nothing => extra nothing.symm) enough

end Tails

/-! ## The algorithm -/

/-- Types of the same form conclude if the equations between their parts do. -/
theorem StepsConclude.parts {rounds : Nat} {expected actual : Ty} {equations : List Equation}
    (steps : StepsConclude rounds {} equations) (split : expected.components actual = some equations) :
    ConcludesWithin rounds expected actual := by
  intro live issued below expectedOver actualLoose enough
  rw [unifyWithin_of_components rounds split]
  exact steps.solve_concludes below (.empty live issued)
    (components_over split expectedOver (actualLoose.over_of_components split)) enough

/-- Records conclude if the equations between their common fields do, and then those for their tails. -/
theorem StepsConclude.rows {rounds : Nat} {expected actual : Ty} (expectedRecord : expected.isRecord = true)
    (actualRecord : actual.isRecord = true) (steps : StepsConclude rounds {} (fieldEquations expected actual))
    (tails : ∀ fields shared equations, tailEquations (.var shared) expected actual = .ok equations →
      StepsConclude rounds fields equations) : ConcludesWithin rounds expected actual := by
  intro live issued below expectedOver actualLoose enough
  have inside := fieldEquations_over expectedOver.fields actualLoose.fields
  rw [unifyWithin_of_isRecord rounds expectedRecord actualRecord]
  refine concludes_bind.mpr ⟨steps.solve_concludes below (.empty live issued) inside enough, ?_⟩
  rintro fields ⟨afterFields⟩ ranFields
  have balanced := (unified_of_run.2 _ _ _ _ _ _ ranFields).balanced below (.empty live issued) inside
  refine concludes_bind.mpr ⟨?_, ?_⟩
  · intro _ _ failed
    rw [sharedTail_run] at failed
    cases failed
  · intro shared after ranShared
    rw [sharedTail_run, Prod.mk.injEq, Except.ok.injEq] at ranShared
    obtain ⟨rfl, rfl⟩ := ranShared
    refine concludes_bind.mpr ⟨concludes_liftExcept (tailEquations_ne_unsettled _ _ _) _, ?_⟩
    intro equations after ranTails
    obtain ⟨planned, rfl⟩ := liftExcept_eq_ok.mp ranTails
    have plan := tailEquations_eq_ok_iff.mp planned
    rw [plan.afterSharedTail_eq]
    exact (tails fields _ equations planned).tails_conclude plan below balanced expectedOver.fields actualLoose.fields
      (fun tail isTail => ⟨Ty.isRecord_tail isTail, expectedOver.tail isTail⟩)
      (fun tail isTail => ⟨Ty.isRecord_tail isTail, actualLoose.tail isTail⟩) enough

/-- Unification concludes, given a round for each variable and one more. -/
theorem concludesWithin :
    (∀ (rounds : Nat) (expected actual : Ty), ConcludesWithin rounds expected actual) ∧
    (∀ (rounds : Nat) (solved : Substitution) (equations : List Equation), StepsConclude rounds solved equations) := by
  apply unifyWithin_induction
  case vars =>
    intro rounds left right live issued _ _ _ _
    exact concludes_var_left _ _ _ _
  case varLeft =>
    intro rounds v type _ live issued _ _ _ _
    exact concludes_var_left _ _ _ _
  case varRight =>
    intro rounds type v _ live issued _ _ _ _
    exact concludes_var_right _ _ _ _
  case list =>
    intro rounds element element' concludes live issued below expectedOver actualLoose enough
    have split : (Ty.list element).components (.list element') = some [⟨element, element'⟩] := rfl
    rw [unifyWithin]
    exact concludes below expectedOver (.inl (actualLoose.over_of_components split)) enough
  case parts =>
    intro rounds expected actual equations split steps
    exact steps.parts split
  case rows =>
    intro rounds expected actual expectedRecord actualRecord steps tails
    exact steps.rows expectedRecord actualRecord tails
  case atom =>
    intro rounds type basic live issued _ _ _ _
    rw [unifyWithin_of_isAtom rounds basic]
    exact concludes_pure _ _
  case clash =>
    intro rounds expected actual clash live issued _ _ _ _
    rw [unifyWithin_of_clash rounds clash]
    intro _ _ failed
    cases failed
  case nil =>
    intro rounds solved
    trivial
  case cons =>
    intro rounds solved equation rest atOnce applied later
    exact ⟨atOnce, applied, later⟩

/-! ## More rounds -/

theorem bind_run_congr {α β : Type} {action action' : UnifyM α} {next next' : α → UnifyM β} {supply : Supply}
    (same : action supply = action' supply)
    (rest : ∀ value after, action' supply = (.ok value, after) → next value after = next' value after) :
    (action >>= next) supply = (action' >>= next') supply := by
  rw [bind_run, bind_run, same]
  split
  · next value after ran => exact rest value after ran
  · rfl

/-- A computation that concludes does the same with more rounds. -/
theorem more_rounds :
    (∀ (rounds : Nat) (expected actual : Ty) (more : Nat) (supply : Supply),
      (unifyWithin rounds expected actual).Concludes supply →
        unifyWithin (rounds + more) expected actual supply = unifyWithin rounds expected actual supply) ∧
    (∀ (rounds : Nat) (solved : Substitution) (equations : List Equation) (more : Nat) (supply : Supply),
      (solve rounds solved equations).Concludes supply →
        solve (rounds + more) solved equations supply = solve rounds solved equations supply) := by
  apply unifyWithin_induction
  case vars =>
    intro rounds left right more supply _
    rw [unifyWithin, unifyWithin]
  case varLeft =>
    intro rounds v type notVar more supply _
    rw [unifyWithin_var_left _ v notVar, unifyWithin_var_left _ v notVar]
  case varRight =>
    intro rounds type v notVar more supply _
    rw [unifyWithin_var_right _ v notVar, unifyWithin_var_right _ v notVar]
  case list =>
    intro rounds element element' ih more supply concludes
    rw [unifyWithin] at concludes
    rw [unifyWithin, unifyWithin]
    exact ih more supply concludes
  case parts =>
    intro rounds expected actual equations split ih more supply concludes
    rw [unifyWithin_of_components rounds split] at concludes
    rw [unifyWithin_of_components _ split, unifyWithin_of_components _ split]
    exact ih more supply concludes
  case rows =>
    intro rounds expected actual expectedRecord actualRecord ihFields ihTails more supply concludes
    rw [unifyWithin_of_isRecord rounds expectedRecord actualRecord] at concludes
    rw [unifyWithin_of_isRecord rounds expectedRecord actualRecord,
      unifyWithin_of_isRecord _ expectedRecord actualRecord]
    obtain ⟨ofFields, later⟩ := concludes_bind.mp concludes
    refine bind_run_congr (ihFields more supply ofFields) fun fields after ranFields => ?_
    refine bind_run_congr rfl fun shared after' ranShared => ?_
    have ofTails := (concludes_bind.mp (later fields after ranFields)).2 shared after' ranShared
    refine bind_run_congr rfl fun equations after'' ranTails => ?_
    obtain ⟨planned, rfl⟩ := liftExcept_eq_ok.mp ranTails
    exact ihTails fields shared equations planned more _ ((concludes_bind.mp ofTails).2 equations _ ranTails)
  case atom =>
    intro rounds type basic more supply _
    rw [unifyWithin_of_isAtom _ basic, unifyWithin_of_isAtom _ basic]
  case clash =>
    intro rounds expected actual clash more supply _
    rw [unifyWithin_of_clash _ clash, unifyWithin_of_clash _ clash]
  case nil =>
    intro rounds solved more supply _
    rw [solve, solve]
  case cons =>
    intro rounds solved equation rest atOnce applied others more supply concludes
    rw [solve.eq_def] at concludes ⊢
    rw [solve.eq_def rounds]
    obtain ⟨first, later⟩ := concludes_bind.mp concludes
    refine bind_run_congr ?_ fun found after ran => others found more after (later found after ran)
    split
    · next empty =>
      rw [if_pos empty] at first
      exact atOnce more supply first
    · next nonempty =>
      rw [if_neg nonempty] at first
      cases rounds with
      -- No round is left, which a run that concludes never meets.
      | zero => exact absurd rfl (first equation.expected equation.actual)
      | succ fewer =>
        rw [Nat.add_right_comm]
        exact applied fewer rfl more supply first

/-- Unification of issued types does not use up its rounds. -/
theorem unify_concludes {expected actual : Ty} {supply : Supply}
    (issued : ∀ v ∈ Equation.vars ⟨expected, actual⟩, v.Below supply.issued) :
    (unify expected actual).Concludes supply := by
  let live := ((Equation.vars ⟨expected, actual⟩).map TypeVar.id).toFinset
  have inLive : ∀ {v : TypeVar}, v ∈ Equation.vars ⟨expected, actual⟩ → v.id ∈ live :=
    fun member => List.mem_toFinset.mpr (List.mem_map_of_mem member)
  have below : AllIssued live supply.issued := by
    intro index inLive
    obtain ⟨v, member, same⟩ := List.mem_map.mp (List.mem_toFinset.mp inLive)
    exact issued v member index same
  have enough : live.card < unificationRounds expected actual := by
    have count : live.card ≤ ((Equation.vars ⟨expected, actual⟩).map TypeVar.id).length := List.toFinset_card_le _
    have := expected.length_occurrences_le
    have := actual.length_occurrences_le
    have := expected.size_pos
    rw [List.length_map, Equation.vars, List.length_append] at count
    dsimp only at count
    rw [unificationRounds]
    omega
  exact concludesWithin.1 _ expected actual below
    (fun v inType => inLive (List.mem_append_left _ inType))
    (.inl fun v inType => inLive (List.mem_append_right _ inType)) enough

/-- Unification of any two types ends, with a substitution, a mismatch or a variable that would have to contain
itself, and no number of rounds beyond those it has changes what it does. -/
theorem unify_terminates {expected actual : Ty} {supply : Supply}
    (issued : ∀ v ∈ Equation.vars ⟨expected, actual⟩, v.Below supply.issued) :
    ((∃ found, (unify expected actual supply).1 = .ok found) ∨
      (∃ left right, (unify expected actual supply).1 = .error (.mismatch left right)) ∨
      ∃ v type, (unify expected actual supply).1 = .error (.occurs v type)) ∧
      ∀ rounds, unificationRounds expected actual ≤ rounds →
        unifyWithin rounds expected actual supply = unify expected actual supply := by
  have concludes := unify_concludes issued
  refine ⟨?_, fun rounds more => ?_⟩
  · cases result : (unify expected actual supply).1 with
    | ok found => exact .inl ⟨found, rfl⟩
    | error error =>
      cases error with
      | mismatch left right => exact .inr (.inl ⟨left, right, rfl⟩)
      | occurs v type => exact .inr (.inr ⟨v, type, rfl⟩)
      | unsettled left right => exact absurd result (concludes left right)
  · obtain ⟨extra, rfl⟩ := Nat.exists_eq_add_of_le more
    exact more_rounds.1 _ expected actual extra supply concludes

/-- Two records whose tails occur in their own fields. -/
def selfReferential : Equation where
  expected :=
    .extension (.var (.generated 0)) (.field "a" (.extension (.var (.generated 0)) (.field "b" .int .empty)) .empty)
  actual :=
    .extension (.var (.generated 1)) (.field "b" (.extension (.var (.generated 1)) (.field "a" .int .empty)) .empty)

theorem unify_terminates_selfReferential :
    (unify selfReferential.expected selfReferential.actual ⟨2⟩).1.isOk = true ∧
      ∀ rounds, unificationRounds selfReferential.expected selfReferential.actual ≤ rounds →
        (unifyWithin rounds selfReferential.expected selfReferential.actual ⟨2⟩).1.isOk = true := by
  have succeeds : (unify selfReferential.expected selfReferential.actual ⟨2⟩).1.isOk = true := by
    rw [unify, unifyWithin_of_isRecord _ rfl rfl]
    cbv
  have issued : ∀ v ∈ selfReferential.vars, v.Below 2 := by
    simp [selfReferential, Equation.vars, Ty.occurrences, Row.occurrences, TypeVar.Below, TypeVar.generated]
  refine ⟨succeeds, fun rounds more => ?_⟩
  have same : unifyWithin rounds selfReferential.expected selfReferential.actual ⟨2⟩
      = unify selfReferential.expected selfReferential.actual ⟨2⟩ := (unify_terminates issued).2 rounds more
  rwa [same]

end RowInference
