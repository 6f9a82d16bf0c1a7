import RowInference.Proofs.Runs
import RowInference.Proofs.Substitution.Extension

/-! # Derivations of unifiers

A successful run of unification, without the bound on its rounds, as a derivation: how each equation was solved, and
which variables were issued on the way. The number in front of a derivation is the index of the next variable, the one
behind it that of the next variable afterwards.
-/

namespace RowInference

/-- The equations between the parts of two types of the same form, records apart. -/
def Ty.components : Ty → Ty → Option (List Equation)
  | .tuple first second, .tuple first' second' => some [⟨first, first'⟩, ⟨second, second'⟩]
  | .triple first second third, .triple first' second' third' =>
    some [⟨first, first'⟩, ⟨second, second'⟩, ⟨third, third'⟩]
  | .list element, .list element' => some [⟨element, element'⟩]
  | .function source target, .function source' target' => some [⟨source, source'⟩, ⟨target, target'⟩]
  | _, _ => none

/-- Two types that no substitution makes equal at their heads: they are not of one form, and not the same atom. -/
structure Ty.Clash (expected actual : Ty) : Prop where
  expectedNotVar : ∀ v, expected = .var v → False
  actualNotVar : ∀ v, actual = .var v → False
  notAlike : expected.components actual = none
  notRecords : ¬(expected.isRecord = true ∧ actual.isRecord = true)
  notSame : ¬(expected.isAtom = true ∧ expected = actual)

/-- The index of the next variable after two records got a shared tail, if they need one. -/
def afterSharedTail (issued : Nat) (expected actual : Ty) : Nat :=
  if needsSharedTail expected actual then issued + 1 else issued

/-- Two types, one of them a variable, and the binding that makes them equal. Of two variables the expected one is
bound, unless it is constrained. -/
inductive Bound : Ty → Ty → Substitution → Prop where
  | same {left right : TypeVar} (sameId : left.id = right.id) : Bound (.var left) (.var right) {}
  | left {v : TypeVar} {type : Ty} (absent : type.occurs v.id = false) (meets : type.Meets v.constraint) :
      Bound (.var v) type (.singleton v type)
  | right {v : TypeVar} {type : Ty} (constrained : ∀ u, type = .var u → u.constraint ≠ none)
      (absent : type.occurs v.id = false) (meets : type.Meets v.constraint) :
      Bound type (.var v) (.singleton v type)

/-- Variables are unified by binding one of them. -/
theorem bound_of_unifyVars {left right : TypeVar} {found : Substitution}
    (success : unifyVars left right = .ok found) : Bound (.var left) (.var right) found := by
  rw [unifyVars] at success
  split at success
  · next same =>
    cases success
    exact .same same
  · next different =>
    have absentLeft : (Ty.var left).occurs right.id = false := by simpa [Ty.occurs] using different
    have absentRight : (Ty.var right).occurs left.id = false := by simpa [Ty.occurs] using Ne.symm different
    split at success
    · next unconstrained =>
      cases success
      exact .left absentRight (by rw [unconstrained]; exact Ty.meets_none _)
    · next constrained unconstrained =>
      cases success
      refine .right ?_ absentLeft (by rw [unconstrained]; exact Ty.meets_none _)
      rintro u ⟨⟩
      rw [constrained]
      exact Option.some_ne_none _
    · next required required' constrained constrained' =>
      split at success
      · next same =>
        cases success
        subst same
        refine .right ?_ absentLeft (Ty.meets_var (constrained.trans constrained'.symm))
        rintro u ⟨⟩
        rw [constrained]
        exact Option.some_ne_none _
      · cases success

/-- A variable is bound to a type of its class in which it does not occur. -/
theorem of_bindVar {v : TypeVar} {type : Ty} {equation : Equation} {found : Substitution}
    (success : bindVar v type equation = .ok found) :
    found = .singleton v type ∧ type.occurs v.id = false ∧ type.Meets v.constraint := by
  rw [bindVar] at success
  split at success
  · cases success
  · next absent =>
    have absent : type.occurs v.id = false := by simpa using absent
    split at success
    · next unconstrained =>
      cases success
      exact ⟨rfl, absent, by rw [unconstrained]; exact Ty.meets_none _⟩
    · next required constrained =>
      split at success
      · next satisfied =>
        cases success
        refine ⟨rfl, absent, ?_⟩
        intro other restricted
        rw [constrained] at restricted
        cases restricted
        exact .inl satisfied
      · cases success

mutual

/-- Two types and the substitution that unification finds for them. -/
inductive Unified : Nat → Ty → Ty → Substitution → Nat → Prop where
  | bind {issued : Nat} {expected actual : Ty} {found : Substitution} (bound : Bound expected actual found) :
      Unified issued expected actual found issued
  | atom {issued : Nat} {type : Ty} (basic : type.isAtom = true) : Unified issued type type {} issued
  | parts {issued issued' : Nat} {expected actual : Ty} {equations : List Equation} {found : Substitution}
      (split : expected.components actual = some equations)
      (solution : Solution issued {} equations found issued') : Unified issued expected actual found issued'
  | rows {issued afterFields issued' : Nat} {expected actual : Ty} {equations : List Equation}
      {fields found : Substitution} (expectedRecord : expected.isRecord = true)
      (actualRecord : actual.isRecord = true)
      (common : Solution issued {} (fieldEquations expected actual) fields afterFields)
      (planned : tailEquations (.var (.generated afterFields)) expected actual = .ok equations)
      (tails : Solution (afterSharedTail afterFields expected actual) fields equations found issued') :
      Unified issued expected actual found issued'

/-- Equations, the substitution they are solved on top of, and the resulting substitution. -/
inductive Solution : Nat → Substitution → List Equation → Substitution → Nat → Prop where
  | done {issued : Nat} {solved : Substitution} : Solution issued solved [] solved issued
  | step {issued issued₁ issued₂ : Nat} {solved found result : Substitution} {equation : Equation}
      {rest : List Equation}
      (first : Unified issued (solved.apply equation.expected) (solved.apply equation.actual) found issued₁)
      (later : Solution issued₁ (found.compose solved) rest result issued₂) :
      Solution issued solved (equation :: rest) result issued₂

end

/-- The derivation of a single equation. -/
theorem Unified.solution {issued issued' : Nat} {equation : Equation} {found : Substitution}
    (unified : Unified issued equation.expected equation.actual found issued') :
    Solution issued {} [equation] found issued' := by
  have first : Unified issued (Substitution.apply {} equation.expected) (Substitution.apply {} equation.actual)
      found issued' := by
    rwa [Substitution.apply_empty, Substitution.apply_empty]
  refine .step first ?_
  rw [Substitution.compose_empty]
  exact .done

/-- A shared tail is the next variable, which is issued only if it is needed. -/
theorem sharedTail_run (expected actual : Ty) (issued : Nat) :
    sharedTail expected actual ⟨issued⟩
      = (.ok (.generated issued), ⟨afterSharedTail issued expected actual⟩) := by
  change ((Except.ok (TypeVar.generated issued) : Except UnifyError TypeVar),
    if needsSharedTail expected actual then (⟨issued + 1⟩ : Supply) else ⟨issued⟩) = _
  rw [afterSharedTail]
  split <;> rfl

/-- Records are unified by their common fields and then by their tails. -/
theorem unifyWithin_of_isRecord (rounds : Nat) {expected actual : Ty} (expectedRecord : expected.isRecord = true)
    (actualRecord : actual.isRecord = true) :
    unifyWithin rounds expected actual = (do
      let fields ← solve rounds {} (fieldEquations expected actual)
      let shared ← sharedTail expected actual
      let equations ← liftExcept (tailEquations (.var shared) expected actual)
      solve rounds fields equations) := by
  rw [unifyWithin, dif_pos ⟨expectedRecord, actualRecord⟩]
  · refine bind_congr fun fields => bind_congr fun shared => ?_
    split
    · next error planned => rw [planned]; rfl
    · next equations planned => dsimp only; rw [planned]; rfl
  all_goals
    intros
    simp_all [Ty.isRecord]

theorem unifyWithin_var_left (rounds : Nat) (v : TypeVar) {type : Ty} (notVar : ∀ u, type = .var u → False) :
    unifyWithin rounds (.var v) type = liftExcept (bindVar v type ⟨.var v, type⟩) := by
  rw [unifyWithin]
  exact notVar

theorem unifyWithin_var_right (rounds : Nat) {type : Ty} (v : TypeVar) (notVar : ∀ u, type = .var u → False) :
    unifyWithin rounds type (.var v) = liftExcept (bindVar v type ⟨type, .var v⟩) := by
  rw [unifyWithin]
  exact notVar

/-- A single equation is solved by unifying its sides. -/
theorem solve_singleton (rounds : Nat) (equation : Equation) :
    solve rounds {} [equation] = unifyWithin rounds equation.expected equation.actual := by
  rw [solve.eq_def]
  simp only [solve, Substitution.compose_empty, bind_pure]
  rfl

/-- Types of the same form are unified by solving the equations between their parts. -/
theorem unifyWithin_of_components (rounds : Nat) {expected actual : Ty} {equations : List Equation}
    (split : expected.components actual = some equations) :
    unifyWithin rounds expected actual = solve rounds {} equations := by
  cases expected <;> cases actual <;> simp only [Ty.components, Option.some.injEq, reduceCtorEq] at split
  all_goals
    subst split
    rw [unifyWithin]
  -- Of a list the elements are unified at once.
  rw [solve_singleton]

/-- An atom is equal to itself without further ado. -/
theorem unifyWithin_of_isAtom (rounds : Nat) {type : Ty} (basic : type.isAtom = true) :
    unifyWithin rounds type type = pure {} := by
  have notRecord : ¬(type.isRecord = true ∧ type.isRecord = true) := by
    cases type <;> simp_all [Ty.isAtom, Ty.isRecord]
  rw [unifyWithin, dif_neg notRecord, if_pos ⟨basic, rfl⟩]
  all_goals
    intros
    subst_vars
    cases basic

/-- Types that clash are reported as they are. -/
theorem unifyWithin_of_clash (rounds : Nat) {expected actual : Ty} (clash : expected.Clash actual) :
    unifyWithin rounds expected actual = throw (.mismatch expected actual) := by
  obtain ⟨expectedNotVar, actualNotVar, notAlike, notRecords, notSame⟩ := clash
  rw [unifyWithin, dif_neg notRecords, if_neg notSame]
  · exact expectedNotVar
  · exact actualNotVar
  · exact fun left _ isLeft _ => expectedNotVar left isLeft
  all_goals
    rintro _ _ _ _
    intros
    subst_vars
    cases notAlike

/-- Solving equations starts with the first one: as it is, or under what was found before if a round is left. -/
theorem solve_cons_cases (rounds : Nat) (solved : Substitution) (equation : Equation) (rest : List Equation) :
    ∃ first : UnifyM Substitution,
      solve rounds solved (equation :: rest) = (first >>= fun found => solve rounds (found.compose solved) rest) ∧
      (solved = {} ∧ first = unifyWithin rounds equation.expected equation.actual ∨
        (∃ fewer, rounds = fewer + 1 ∧
          first = unifyWithin fewer (solved.apply equation.expected) (solved.apply equation.actual)) ∨
        first = throw (.unsettled equation.expected equation.actual)) := by
  rw [solve.eq_def]
  refine ⟨_, rfl, ?_⟩
  split
  · next empty => exact .inl ⟨Std.ExtTreeMap.isEmpty_iff.mp empty, rfl⟩
  · cases rounds with
    | zero => exact .inr (.inr rfl)
    | succ fewer => exact .inr (.inl ⟨fewer, rfl, rfl⟩)

/-- Induction along unification: the types of one form are taken together, and the first of several equations comes
with both ways in which it may be met, as it is and under what was found before. -/
theorem unifyWithin_induction {unifies : Nat → Ty → Ty → Prop} {solves : Nat → Substitution → List Equation → Prop}
    (vars : ∀ rounds left right, unifies rounds (.var left) (.var right))
    (varLeft : ∀ rounds v type, (∀ u, type = .var u → False) → unifies rounds (.var v) type)
    (varRight : ∀ rounds type v, (∀ u, type = .var u → False) → unifies rounds type (.var v))
    (list : ∀ rounds element element', unifies rounds element element' →
      unifies rounds (.list element) (.list element'))
    (parts : ∀ rounds expected actual equations, expected.components actual = some equations →
      solves rounds {} equations → unifies rounds expected actual)
    (rows : ∀ rounds expected actual, expected.isRecord = true → actual.isRecord = true →
      solves rounds {} (fieldEquations expected actual) →
      (∀ fields shared equations, tailEquations (.var shared) expected actual = .ok equations →
        solves rounds fields equations) → unifies rounds expected actual)
    (atom : ∀ rounds type, type.isAtom = true → unifies rounds type type)
    (clash : ∀ rounds expected actual, expected.Clash actual → unifies rounds expected actual)
    (nil : ∀ rounds solved, solves rounds solved [])
    (cons : ∀ rounds solved equation rest, unifies rounds equation.expected equation.actual →
      (∀ fewer, rounds = fewer + 1 → unifies fewer (solved.apply equation.expected) (solved.apply equation.actual)) →
      (∀ found : Substitution, solves rounds (found.compose solved) rest) → solves rounds solved (equation :: rest)) :
    (∀ rounds expected actual, unifies rounds expected actual) ∧
      ∀ rounds solved equations, solves rounds solved equations := by
  apply unifyWithin.mutual_induct
  case case1 => exact vars
  case case2 => exact varLeft
  case case3 => exact varRight
  case case4 => exact fun rounds _ _ _ _ => parts rounds _ _ _ rfl
  case case5 => exact fun rounds _ _ _ _ _ _ => parts rounds _ _ _ rfl
  case case6 => exact list
  case case7 => exact fun rounds _ _ _ _ => parts rounds _ _ _ rfl
  case case8 =>
    intro rounds expected actual _ _ _ _ _ _ _ records _ common tails
    exact rows rounds expected actual records.1 records.2 common tails
  case case9 =>
    intro rounds expected actual _ _ _ _ _ _ _ _ same
    obtain ⟨basic, rfl⟩ := same
    exact atom rounds expected basic
  case case10 =>
    intro rounds expected actual _ notVar notVar' _ _ _ _ notRecords different
    exact clash rounds expected actual ⟨notVar, notVar', by rw [Ty.components] <;> assumption, notRecords, different⟩
  case case11 => exact nil
  case case12 =>
    intro rounds solved equation rest atOnce applied others
    refine cons rounds solved equation rest atOnce ?_ others
    rintro fewer rfl
    exact applied

/-- Every successful run has a derivation. -/
theorem unified_of_run :
    (∀ (rounds : Nat) (expected actual : Ty) (issued : Nat) (found : Substitution) (supply : Supply),
      unifyWithin rounds expected actual ⟨issued⟩ = (.ok found, supply) →
        Unified issued expected actual found supply.issued) ∧
    (∀ (rounds : Nat) (solved : Substitution) (equations : List Equation) (issued : Nat)
      (result : Substitution) (supply : Supply),
      solve rounds solved equations ⟨issued⟩ = (.ok result, supply) →
        Solution issued solved equations result supply.issued) := by
  apply unifyWithin_induction
  case vars =>
    intro rounds left right issued found supply success
    rw [unifyWithin] at success
    obtain ⟨bound, rfl⟩ := liftExcept_eq_ok.mp success
    exact .bind (bound_of_unifyVars bound)
  case varLeft =>
    intro rounds v type notVar issued found supply success
    rw [unifyWithin_var_left rounds v notVar] at success
    obtain ⟨bound, rfl⟩ := liftExcept_eq_ok.mp success
    obtain ⟨rfl, absent, meets⟩ := of_bindVar bound
    exact .bind (.left absent meets)
  case varRight =>
    intro rounds type v notVar issued found supply success
    rw [unifyWithin_var_right rounds v notVar] at success
    obtain ⟨bound, rfl⟩ := liftExcept_eq_ok.mp success
    obtain ⟨rfl, absent, meets⟩ := of_bindVar bound
    exact .bind (.right (fun u same => (notVar u same).elim) absent meets)
  case list =>
    intro rounds element element' ih issued found supply success
    rw [unifyWithin] at success
    exact .parts rfl (ih issued found supply success).solution
  case parts =>
    intro rounds expected actual equations split ih issued found supply success
    rw [unifyWithin_of_components rounds split] at success
    exact .parts split (ih issued found supply success)
  case rows =>
    intro rounds expected actual expectedRecord actualRecord ihFields ihTails issued found supply success
    rw [unifyWithin_of_isRecord rounds expectedRecord actualRecord] at success
    obtain ⟨fields, ⟨afterFields⟩, ranFields, success⟩ := bind_eq_ok.mp success
    obtain ⟨shared, middle, ranShared, success⟩ := bind_eq_ok.mp success
    obtain ⟨equations, after, ranTails, success⟩ := bind_eq_ok.mp success
    rw [sharedTail_run, Prod.mk.injEq, Except.ok.injEq] at ranShared
    obtain ⟨rfl, rfl⟩ := ranShared
    obtain ⟨planned, rfl⟩ := liftExcept_eq_ok.mp ranTails
    exact .rows expectedRecord actualRecord (ihFields issued fields _ ranFields) planned
      (ihTails fields _ equations planned _ found supply success)
  case atom =>
    intro rounds type basic issued found supply success
    rw [unifyWithin_of_isAtom rounds basic] at success
    obtain ⟨rfl, rfl⟩ := pure_eq_ok.mp success
    exact .atom basic
  case clash =>
    intro rounds expected actual clash issued found supply success
    rw [unifyWithin_of_clash rounds clash] at success
    exact absurd success throw_ne_ok
  case nil =>
    intro rounds solved issued result supply success
    rw [solve] at success
    obtain ⟨rfl, rfl⟩ := pure_eq_ok.mp success
    exact .done
  case cons =>
    intro rounds solved equation rest atOnce applied others issued result supply success
    obtain ⟨first, step, cases⟩ := solve_cons_cases rounds solved equation rest
    rw [step] at success
    obtain ⟨found, ⟨issued₁⟩, ranFirst, ranRest⟩ := bind_eq_ok.mp success
    refine .step ?_ (others found issued₁ result supply ranRest)
    rcases cases with ⟨rfl, rfl⟩ | ⟨fewer, isFewer, rfl⟩ | rfl
    · rw [Substitution.apply_empty, Substitution.apply_empty]
      exact atOnce issued found _ ranFirst
    · exact applied fewer isFewer issued found _ ranFirst
    · exact absurd ranFirst throw_ne_ok

/-! ## Variables used up -/

/-- Variables issued before a failure stay issued. -/
def UnifyM.Issues {α : Type} (action : UnifyM α) : Prop := ∀ supply, supply.issued ≤ (action supply).2.issued

namespace UnifyM

theorem issues_pure {α : Type} (value : α) : Issues (pure value) := fun _ => Nat.le_refl _

theorem issues_throw {α : Type} (error : UnifyError) : Issues (throw error : UnifyM α) := fun _ => Nat.le_refl _

theorem issues_liftExcept {α : Type} (result : Except UnifyError α) : Issues (liftExcept result) := by
  cases result with
  | error error => exact issues_throw error
  | ok value => exact issues_pure value

/-- Steps that take no variable back take none back together. -/
theorem Issues.bind {α β : Type} {action : UnifyM α} {next : α → UnifyM β} (first : action.Issues)
    (rest : ∀ value, (next value).Issues) : (action >>= next).Issues := by
  intro supply
  have begun := first supply
  rw [bind_run]
  rcases ran : action supply with ⟨_ | value, mid⟩
  · rwa [ran] at begun
  · rw [ran] at begun
    exact Nat.le_trans begun (rest value mid)

theorem issues_sharedTail (expected actual : Ty) : (sharedTail expected actual).Issues := by
  rintro ⟨issued⟩
  rw [sharedTail_run, afterSharedTail]
  split <;> simp

end UnifyM

open UnifyM in
private theorem issues_of_run :
    (∀ (rounds : Nat) (expected actual : Ty), (unifyWithin rounds expected actual).Issues) ∧
    (∀ (rounds : Nat) (solved : Substitution) (equations : List Equation), (solve rounds solved equations).Issues) := by
  apply unifyWithin_induction
  case vars =>
    intro rounds left right
    rw [unifyWithin]
    exact issues_liftExcept _
  case varLeft =>
    intro rounds v type notVar
    rw [unifyWithin_var_left rounds v notVar]
    exact issues_liftExcept _
  case varRight =>
    intro rounds type v notVar
    rw [unifyWithin_var_right rounds v notVar]
    exact issues_liftExcept _
  case list =>
    intro rounds element element' issues
    rwa [unifyWithin]
  case parts =>
    intro rounds expected actual equations split issues
    rwa [unifyWithin_of_components rounds split]
  case rows =>
    intro rounds expected actual expectedRecord actualRecord common tails
    rw [unifyWithin_of_isRecord rounds expectedRecord actualRecord]
    refine common.bind fun fields => (issues_sharedTail expected actual).bind fun shared => ?_
    cases planned : tailEquations (.var shared) expected actual with
    | error error => exact issues_throw error
    | ok equations => exact tails fields shared equations planned
  case atom =>
    intro rounds type basic
    rw [unifyWithin_of_isAtom rounds basic]
    exact issues_pure _
  case clash =>
    intro rounds expected actual clash
    rw [unifyWithin_of_clash rounds clash]
    exact issues_throw _
  case nil =>
    intro rounds solved
    rw [solve]
    exact issues_pure solved
  case cons =>
    intro rounds solved equation rest atOnce applied others
    obtain ⟨first, step, cases⟩ := solve_cons_cases rounds solved equation rest
    rw [step]
    refine Issues.bind ?_ others
    rcases cases with ⟨_, rfl⟩ | ⟨fewer, isFewer, rfl⟩ | rfl
    · exact atOnce
    · exact applied fewer isFewer
    · exact issues_throw _

/-- Unification takes no variable back. -/
theorem issued_le_unify (expected actual : Ty) (supply : Supply) :
    supply.issued ≤ (unify expected actual supply).2.issued := issues_of_run.1 _ expected actual supply

end RowInference
