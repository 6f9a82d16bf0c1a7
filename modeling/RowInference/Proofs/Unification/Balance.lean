import RowInference.Proofs.Unification.Confinement

/-! # Unification binds more than it issues

A derivation that finds anything binds more variables than it issues. The one step that issues a variable is the one in
which two open records get a shared tail, and the equations for it bind both tails, or one of them after something has
been found for the common fields.
-/

namespace RowInference

open Substitution (singleton)

/-! ## Induction on derivations -/

/-- Equations solved one after the other, in steps that have a property. -/
inductive Chain (holds : Nat → Ty → Ty → Substitution → Nat → Prop) :
    Nat → Substitution → List Equation → Substitution → Nat → Prop where
  | done {issued : Nat} {solved : Substitution} : Chain holds issued solved [] solved issued
  | step {issued issued₁ issued₂ : Nat} {solved found result : Substitution} {equation : Equation}
      {rest : List Equation}
      (first : holds issued (solved.apply equation.expected) (solved.apply equation.actual) found issued₁)
      (later : Chain holds issued₁ (found.compose solved) rest result issued₂) :
      Chain holds issued solved (equation :: rest) result issued₂

/-- Induction on a derivation, which has the property in each of its steps. -/
theorem Unified.induction {motive : Nat → Ty → Ty → Substitution → Nat → Prop}
    (bind : ∀ {issued : Nat} {expected actual : Ty} {found : Substitution}, Bound expected actual found →
      motive issued expected actual found issued)
    (atom : ∀ {issued : Nat} {type : Ty}, type.isAtom = true → motive issued type type {} issued)
    (parts : ∀ {issued issued' : Nat} {expected actual : Ty} {equations : List Equation} {found : Substitution},
      expected.components actual = some equations →
      Chain (fun issued expected actual found issued' => Unified issued expected actual found issued' ∧
        motive issued expected actual found issued') issued {} equations found issued' →
      motive issued expected actual found issued')
    (rows : ∀ {issued afterFields issued' : Nat} {expected actual : Ty} {equations : List Equation}
      {fields found : Substitution}, expected.isRecord = true → actual.isRecord = true →
      Chain (fun issued expected actual found issued' => Unified issued expected actual found issued' ∧
        motive issued expected actual found issued') issued {} (fieldEquations expected actual) fields afterFields →
      tailEquations (.var (.generated afterFields)) expected actual = .ok equations →
      Chain (fun issued expected actual found issued' => Unified issued expected actual found issued' ∧
        motive issued expected actual found issued') (afterSharedTail afterFields expected actual) fields
          equations found
        issued' → motive issued expected actual found issued')
    {issued issued' : Nat} {expected actual : Ty} {found : Substitution}
    (unified : Unified issued expected actual found issued') : motive issued expected actual found issued' :=
  Unified.rec (motive_1 := fun issued expected actual found issued' _ => motive issued expected actual found issued')
    (motive_2 := fun issued solved equations result issued' _ =>
      Chain (fun issued expected actual found issued' => Unified issued expected actual found issued' ∧
        motive issued expected actual found issued') issued solved equations result issued')
    (fun bound => bind bound) (fun basic => atom basic) (fun split _ ih => parts split ih)
    (fun expectedRecord actualRecord _ planned _ ih ih' => rows expectedRecord actualRecord ih planned ih')
    .done (fun first _ ih ih' => .step ⟨first, ih⟩ ih') unified

/-! ## Open rows under a substitution -/

/-- Apply a substitution to the types of all fields. -/
def Substitution.applyRow (subst : Substitution) (row : Row) : Row :=
  if subst.isEmpty then row else row.mapVars subst.value

namespace Substitution

variable {subst : Substitution}

theorem contains_applyRow (subst : Substitution) (row : Row) (key : String) :
    (subst.applyRow row).contains key = row.contains key := by
  rw [applyRow]
  split
  · rfl
  · exact Row.contains_mapVars ..

theorem apply_record (fields : Row) : subst.apply (.record fields) = .record (subst.applyRow fields) := by
  rw [applyRow]
  split
  · next empty => rw [apply, if_pos empty]
  · next nonempty => exact apply_of_ne_empty (by simpa using nonempty) _

theorem isRecord_apply {type : Ty} (notVar : ∀ v, type ≠ .var v) : (subst.apply type).isRecord = type.isRecord := by
  by_cases empty : subst = {}
  · rw [empty, apply_empty]
  · rw [apply_of_ne_empty empty]
    cases type
    case var v => exact absurd rfl (notVar v)
    case extension base fields => exact Ty.flatten_isRecord ..
    all_goals rfl

end Substitution

theorem Ty.mapVars_openRow {replace : TypeVar → Ty} {v : TypeVar} (stays : replace v = .var v) (fields : Row) :
    ((Ty.var v).openRow fields).mapVars replace = (Ty.var v).openRow (fields.mapVars replace) := by
  rw [Ty.openRow, Ty.openRow, Row.isEmpty_mapVars]
  split
  · exact stays
  · rw [Ty.mapVars, Ty.mapVars, stays]
    rfl

/-- An open row on an unbound tail keeps its tail. -/
theorem Substitution.apply_openRow_of_none {subst : Substitution} {v : TypeVar} (unbound : subst[v.id]? = none)
    (fields : Row) : subst.apply ((Ty.var v).openRow fields) = (Ty.var v).openRow (subst.applyRow fields) := by
  rw [applyRow]
  split
  · next empty => rw [apply, if_pos empty]
  · next nonempty =>
    rw [Substitution.apply_of_ne_empty (by simpa using nonempty), Ty.mapVars_openRow (value_of_none unbound)]

theorem Ty.openRow_of_ne {fields : Row} (tail : Ty) (nonempty : fields ≠ .empty) :
    tail.openRow fields = .extension tail fields := by
  rw [Ty.openRow, if_neg]
  rwa [Row.isEmpty_iff]

theorem Ty.rowParts_openRow_tail (v : TypeVar) (fields : Row) :
    ((Ty.var v).openRow fields).rowParts.2 = some (.var v) := by
  rw [Ty.openRow]
  split <;> rfl

/-! ## Runs that find nothing -/

/-- A variable on the left is bound. -/
theorem Unified.bound_left {issued issued' : Nat} {v : TypeVar} {actual : Ty} {found : Substitution}
    (unified : Unified issued (.var v) actual found issued') : Bound (.var v) actual found := by
  cases unified with
  | bind bound => exact bound
  | atom basic => cases basic
  | parts split => cases split
  | rows expectedRecord => cases expectedRecord

theorem Unified.bound_right {issued issued' : Nat} {v : TypeVar} {expected : Ty} {found : Substitution}
    (unified : Unified issued expected (.var v) found issued') : Bound expected (.var v) found := by
  cases unified with
  | bind bound => exact bound
  | atom basic => cases basic
  | parts split => cases expected <;> cases split
  | rows _ actualRecord => cases actualRecord

theorem singleton_ne_empty (v : TypeVar) (type : Ty) : singleton v type ≠ {} := by
  intro empty
  have found := Substitution.getElem?_singleton v type v.id
  simp [empty] at found

/-- Nothing is bound only if both sides are the same variable. -/
theorem Bound.same_of_empty {v : TypeVar} {type : Ty} (bound : Bound (.var v) type {}) :
    ∃ u, type = .var u ∧ v.id = u.id := by
  generalize nothing : ({} : Substitution) = found at bound
  cases bound with
  | same sameId => exact ⟨_, rfl, sameId⟩
  | left | right => exact absurd nothing.symm (singleton_ne_empty _ _)

theorem Bound.same_of_empty_right {v : TypeVar} {type : Ty} (bound : Bound type (.var v) {}) :
    ∃ u, type = .var u ∧ u.id = v.id := by
  generalize nothing : ({} : Substitution) = found at bound
  cases bound with
  | same sameId => exact ⟨_, rfl, sameId⟩
  | left | right => exact absurd nothing.symm (singleton_ne_empty _ _)

theorem Solution.eq_empty {issued issued' : Nat} {solved : Substitution} {equations : List Equation}
    (solution : Solution issued solved equations {} issued') : solved = {} := by
  induction equations generalizing issued solved with
  | nil => cases solution; rfl
  | cons equation rest ih =>
    cases solution with
    | step first later => exact (Substitution.compose_eq_empty.mp (ih later)).1

/-- If nothing is found for equations, nothing is found for the first of them. -/
theorem Solution.first_of_empty {issued issued' : Nat} {solved : Substitution} {equation : Equation}
    {rest : List Equation} (solution : Solution issued solved (equation :: rest) {} issued') :
    ∃ issued₁, Unified issued equation.expected equation.actual {} issued₁ ∧ Solution issued₁ {} rest {} issued' := by
  cases solution with
  | @step _ issued₁ _ _ found _ _ _ first later =>
    have composed := later.eq_empty
    obtain ⟨rfl, rfl⟩ := Substitution.compose_eq_empty.mp composed
    rw [Substitution.apply_empty, Substitution.apply_empty] at first
    rw [composed] at later
    exact ⟨issued₁, first, later⟩

theorem Chain.issues {holds : Nat → Ty → Ty → Substitution → Nat → Prop}
    (each : ∀ {issued issued' : Nat} {expected actual : Ty} {found : Substitution},
      holds issued expected actual found issued' → issued ≤ issued')
    {issued issued' : Nat} {solved result : Substitution} {equations : List Equation}
    (chain : Chain holds issued solved equations result issued') : issued ≤ issued' := by
  induction chain with
  | done => exact Nat.le_refl _
  | step first _ ih => exact Nat.le_trans (each first) ih

/-- A derivation takes no variable back. -/
theorem Unified.issues {issued issued' : Nat} {expected actual : Ty} {found : Substitution}
    (unified : Unified issued expected actual found issued') : issued ≤ issued' := by
  refine Unified.induction (motive := fun issued _ _ _ issued' => issued ≤ issued') (fun _ => Nat.le_refl _)
    (fun _ => Nat.le_refl _) ?_ ?_ unified
  · intro _ _ _ _ _ _ _ chain
    exact chain.issues fun step => step.2
  · intro _ _ _ _ _ _ _ _ _ _ common _ tails
    exact Nat.le_trans (common.issues fun step => step.2)
      (Nat.le_trans (le_afterSharedTail ..) (tails.issues fun step => step.2))

theorem Solution.issues {issued issued' : Nat} {solved result : Substitution} {equations : List Equation}
    (solution : Solution issued solved equations result issued') : issued ≤ issued' := by
  induction equations generalizing issued solved with
  | nil => cases solution; exact Nat.le_refl _
  | cons equation rest ih =>
    cases solution with
    | step first later => exact Nat.le_trans first.issues (ih later)

/-- Where nothing is found, a tail on one side is a tail on the other. -/
theorem Unified.tail_of_empty {issued issued' : Nat} {expected actual : Ty} {v : TypeVar}
    (unified : Unified issued expected actual {} issued') (isTail : actual.rowParts.2 = some (.var v))
    (below : v.Below issued) : ∃ u, expected.rowParts.2 = some (.var u) ∧ u.id = v.id := by
  generalize nothing : ({} : Substitution) = found at unified
  cases unified with
  | bind bound =>
    cases bound with
    | same sameId =>
      cases isTail
      exact ⟨_, rfl, sameId⟩
    | left | right => exact absurd nothing.symm (singleton_ne_empty _ _)
  | atom basic => cases expected <;> cases basic <;> cases isTail
  | parts split => cases expected <;> cases actual <;> cases split <;> cases isTail
  | @rows _ afterFields _ _ _ _ _ _ _ _ common planned tails =>
    subst nothing
    have issues := common.issues
    have plan := tailEquations_eq_ok_iff.mp planned
    generalize expected.rowParts.1 = left, expected.rowParts.2 = leftTail at plan ⊢
    generalize actual.rowParts.1 = right at plan
    rw [isTail] at plan
    cases plan with
    | closedLeft =>
      obtain ⟨_, first, _⟩ := tails.first_of_empty
      obtain ⟨u, impossible, _⟩ := first.bound_left.same_of_empty
      cases impossible
    | same => exact ⟨v, rfl, rfl⟩
    | meet =>
      obtain ⟨_, first, _⟩ := tails.first_of_empty
      obtain ⟨u, rfl, sameId⟩ := first.bound_right.same_of_empty_right
      exact ⟨u, rfl, sameId⟩
    | shared =>
      -- The tail itself would have to be the shared one, which is new.
      obtain ⟨_, _, later⟩ := tails.first_of_empty
      obtain ⟨_, second, _⟩ := later.first_of_empty
      obtain ⟨u, isVar, sameId⟩ := second.bound_left.same_of_empty
      have isShared := Ty.rowParts_openRow_tail (.generated afterFields) (left.without right)
      dsimp only at isVar
      rw [isVar] at isShared
      cases isShared
      have := below afterFields sameId
      omega

/-! ## Equations that are settled at once -/

theorem Row.Disjoint.symm {row other : Row} (disjoint : row.Disjoint other) : other.Disjoint row := by
  intro key inRow
  by_contra inOther
  rw [disjoint key (by simpa using inOther)] at inRow
  cases inRow

theorem Row.Disjoint.congr {row other row' other' : Row} (disjoint : row.Disjoint other)
    (sameRow : ∀ key, row'.contains key = row.contains key)
    (sameOther : ∀ key, other'.contains key = other.contains key) :
    row'.Disjoint other' := by
  intro key inOther
  rw [sameRow]
  exact disjoint key (by rwa [← sameOther])

theorem Row.eq_empty_of_contains {row other : Row} (same : ∀ key, row.contains key = other.contains key)
    (empty : row = .empty) : other = .empty := by
  by_contra nonempty
  obtain ⟨key, inOther⟩ := Row.exists_contains nonempty
  rw [← same, empty] at inOther
  cases inOther

theorem Row.Disjoint.eq_empty {row other : Row} (disjoint : row.Disjoint other) (nothing : row.without other = .empty) :
    row = .empty := by
  refine Row.eq_empty_of_contains (fun key => ?_) nothing
  rw [Row.contains_without]
  cases inRow : row.contains key with
  | false => exact Bool.and_false _
  | true => rw [disjoint.symm key inRow]; rfl

theorem Ty.contains_rowParts_openRow (v : TypeVar) (fields : Row) (key : String) :
    ((Ty.var v).openRow fields).rowParts.1.contains key = fields.contains key := by
  rw [Ty.openRow]
  split
  · next empty => rw [Row.isEmpty_iff.mp empty]; rfl
  · exact (Row.contains_extend _ _ key).trans (Bool.or_false _)

/-- Different fields on the same tail do not fit together. -/
theorem TailPlan.sameTail_refused {shared tail : Ty} {left right : Row} {equations : List Equation}
    (disjoint : left.Disjoint right) (extra : ¬(left = .empty ∧ right = .empty)) :
    ¬TailPlan shared left right (some tail) (some tail) equations := by
  intro plan
  cases plan with
  | same onlyLeft onlyRight => exact extra ⟨disjoint.eq_empty onlyLeft, disjoint.symm.eq_empty onlyRight⟩
  | meet different | shared different => exact different rfl

/-- Equations between a tail and an open row, in the forms that arise when two open rows get a shared tail. -/
inductive Shallow : Ty → Ty → Prop where
  | record {expected actual : Ty} (notRecord : expected.isRecord = false) (record : actual.isRecord = true) :
      Shallow expected actual
  | fresh {expected : Ty} {v : TypeVar} (notRecord : expected.isRecord = false)
      (different : ∀ u, expected = .var u → u.id ≠ v.id) : Shallow expected (.var v)
  | sameTail {v : TypeVar} {left right : Row} (disjoint : left.Disjoint right)
      (extra : ¬(left = .empty ∧ right = .empty)) : Shallow ((Ty.var v).openRow left) ((Ty.var v).openRow right)

section SameTail

variable {v : TypeVar} {left right : Row} (disjoint : left.Disjoint right) (extra : ¬(left = .empty ∧ right = .empty))

include disjoint extra

/-- Rows on the same tail with different fields cannot be made equal. -/
theorem tailEquations_sameTail (shared : Ty) :
    tailEquations shared ((Ty.var v).openRow left) ((Ty.var v).openRow right)
      = .error (.mismatch ((Ty.var v).openRow left) ((Ty.var v).openRow right)) := by
  have names := Ty.contains_rowParts_openRow v
  have refused : ∀ equations,
    tailEquations shared ((Ty.var v).openRow left) ((Ty.var v).openRow right) ≠ .ok equations := by
    intro equations planned
    have plan := tailEquations_eq_ok_iff.mp planned
    rw [Ty.rowParts_openRow_tail, Ty.rowParts_openRow_tail] at plan
    refine TailPlan.sameTail_refused (disjoint.congr (names left) (names right)) ?_ plan
    rintro ⟨leftEmpty, rightEmpty⟩
    exact extra ⟨Row.eq_empty_of_contains (names left) leftEmpty, Row.eq_empty_of_contains (names right) rightEmpty⟩
  cases planned : tailEquations shared ((Ty.var v).openRow left) ((Ty.var v).openRow right) with
  | ok equations => exact absurd planned (refused equations)
  | error error =>
    simp only [tailEquations, Ty.rowParts_openRow_tail, if_true] at planned
    split at planned
    · cases planned
    · exact planned.symm

/-- So no derivation unifies such rows. -/
theorem Unified.not_sameTail {issued issued' : Nat} {found : Substitution} :
    ¬Unified issued ((Ty.var v).openRow left) ((Ty.var v).openRow right) found issued' := by
  have refused := fun shared => tailEquations_sameTail (v := v) disjoint extra shared
  intro unified
  generalize isLeft : (Ty.var v).openRow left = expected at *
  generalize isRight : (Ty.var v).openRow right = actual at *
  have leftTail := Ty.rowParts_openRow_tail v left
  have rightTail := Ty.rowParts_openRow_tail v right
  rw [isLeft] at leftTail
  rw [isRight] at rightTail
  have inLeft : v ∈ expected.occurrences := Ty.mem_occurrences_of_tail leftTail (List.mem_singleton_self v)
  have inRight : v ∈ actual.occurrences := Ty.mem_occurrences_of_tail rightTail (List.mem_singleton_self v)
  cases unified with
  | bind bound =>
    cases bound with
    | same =>
      have nothing : ∀ {fields : Row} {u : TypeVar}, (Ty.var v).openRow fields = .var u → fields = .empty := by
        intro fields u isVar
        by_contra nonempty
        rw [Ty.openRow_of_ne _ nonempty] at isVar
        cases isVar
      exact extra ⟨nothing isLeft, nothing isRight⟩
    | left absent =>
      cases leftTail
      rw [Ty.occurs_iff.mpr ⟨v, inRight, rfl⟩] at absent
      cases absent
    | right _ absent =>
      cases rightTail
      rw [Ty.occurs_iff.mpr ⟨v, inLeft, rfl⟩] at absent
      cases absent
  | atom basic => cases expected <;> cases basic <;> cases leftTail
  | parts split => cases expected <;> cases actual <;> cases split <;> cases leftTail
  | rows _ _ _ planned =>
    rw [refused] at planned
    cases planned

end SameTail

/-- The equation for a shared tail always binds something. -/
theorem Shallow.binds {expected actual : Ty} {issued issued' : Nat} {found : Substitution}
    (shallow : Shallow expected actual) (unified : Unified issued expected actual found issued') : found ≠ {} := by
  rintro rfl
  cases shallow with
  | record notRecord record =>
    generalize nothing : ({} : Substitution) = found at unified
    cases unified with
    | bind bound =>
      cases bound with
      | same => cases record
      | left | right => exact singleton_ne_empty _ _ nothing.symm
    | atom basic => cases expected <;> cases basic <;> cases record
    | parts split => cases expected <;> cases actual <;> cases split <;> cases record
    | rows expectedRecord => rw [notRecord] at expectedRecord; cases expectedRecord
  | fresh notRecord different =>
    obtain ⟨u, isVar, sameId⟩ := unified.bound_right.same_of_empty_right
    exact different u isVar sameId
  | sameTail disjoint extra => exact Unified.not_sameTail disjoint extra unified

/-- A tail that is put in terms of a new one is bound, unless it has no fields to take up and the new one is bound to
it. -/
theorem Unified.open_cases {issued issued' : Nat} {tail : Ty} {v : TypeVar} {fields : Row} {found : Substitution}
    (unified : Unified issued tail ((Ty.var v).openRow fields) found issued') (notRecord : tail.isRecord = false)
    (absent : ∀ u ∈ tail.occurrences, u.id ≠ v.id) :
    (∃ u, tail = .var u ∧ found = singleton u ((Ty.var v).openRow fields)) ∨
      fields = .empty ∧ found = singleton v tail := by
  by_cases empty : fields = .empty
  · subst empty
    have bound : Bound tail (.var v) found := Unified.bound_right unified
    cases bound with
    | same sameId => exact absurd sameId (absent _ (List.mem_singleton_self _))
    | left => exact .inl ⟨_, rfl, rfl⟩
    | right => exact .inr ⟨rfl, rfl⟩
  · rw [Ty.openRow_of_ne _ empty] at unified ⊢
    cases unified with
    | bind bound =>
      cases bound with
      | left => exact .inl ⟨_, rfl, rfl⟩
    | atom basic => cases basic
    | parts split => cases tail <;> cases split
    | rows expectedRecord => rw [notRecord] at expectedRecord; cases expectedRecord

/-- A tail that is not bound keeps its form. -/
theorem Substitution.apply_tail {subst : Substitution} {tail : Ty} (notRecord : tail.isRecord = false)
    (unbound : ∀ u, tail = .var u → subst[u.id]? = none) :
    (subst.apply tail).isRecord = false ∧ ∀ u, subst.apply tail = .var u → tail = .var u := by
  by_cases isVar : ∃ u, tail = .var u
  · obtain ⟨u, rfl⟩ := isVar
    have stays : subst.apply (.var u) = .var u := value_of_none (unbound u rfl)
    rw [stays]
    exact ⟨rfl, fun _ same => same⟩
  · have notVar : ∀ u, tail ≠ .var u := fun u same => isVar ⟨u, same⟩
    refine ⟨(isRecord_apply notVar).trans notRecord, fun u isVar => ?_⟩
    by_cases empty : subst = {}
    · rwa [empty, Substitution.apply_empty] at isVar
    · rw [apply_of_ne_empty empty] at isVar
      cases tail
      case var => exact absurd rfl (notVar _)
      case record | extension => cases notRecord
      all_goals cases isVar

/-- A tail that is bound to an open row resolves to a row with the same fields. -/
theorem value_singleton_openRow {u v w : TypeVar} (different : u.id ≠ v.id) (same : u.id = w.id) (fields : Row) :
    ∃ fields' : Row, (singleton u ((Ty.var v).openRow fields)).apply (.var w) = (Ty.var v).openRow fields' ∧
      ∀ key, fields'.contains key = fields.contains key := by
  have bound : (singleton u ((Ty.var v).openRow fields))[w.id]? = some ((Ty.var v).openRow fields) := by
    rw [Substitution.getElem?_singleton, if_pos same]
  have unbound : ((singleton u ((Ty.var v).openRow fields)).erase w.id)[v.id]? = none := by
    rw [Substitution.getElem?_erase_of_ne (same ▸ different), Substitution.getElem?_singleton, if_neg different]
  let resolved : TypeVar → Ty := fun other =>
    Substitution.resolve ((singleton u ((Ty.var v).openRow fields)).erase w.id) (.var other)
  have stays : resolved v = .var v := Substitution.resolve_var_of_none unbound
  refine ⟨fields.mapVars resolved, ?_, Row.contains_mapVars _ fields⟩
  rw [Substitution.apply_var_eq_resolve, Substitution.resolve_var_of_some bound, Substitution.resolve_eq_mapVars]
  exact Ty.mapVars_openRow stays fields

/-- Nothing is found below the tails of two open rows: one is put in terms of the shared tail, and what this leaves of
the other one is settled at once. -/
theorem Unified.second_shallow {issued issued' : Nat} {leftTail rightTail : Ty} {v : TypeVar} {forLeft forRight : Row}
    {found : Substitution} (first : Unified issued leftTail ((Ty.var v).openRow forLeft) found issued')
    (leftNotRecord : leftTail.isRecord = false) (rightNotRecord : rightTail.isRecord = false)
    (leftAbsent : ∀ u ∈ leftTail.occurrences, u.id ≠ v.id) (rightAbsent : ∀ u ∈ rightTail.occurrences, u.id ≠ v.id)
    (disjoint : forLeft.Disjoint forRight) (extra : ¬(forLeft = .empty ∧ forRight = .empty)) :
    Shallow (found.apply rightTail) (found.apply ((Ty.var v).openRow forRight)) := by
  rcases first.open_cases leftNotRecord leftAbsent with ⟨u, rfl, rfl⟩ | ⟨rfl, rfl⟩
  · have different := leftAbsent u (List.mem_singleton_self u)
    rw [Substitution.apply_openRow_of_none (by rw [Substitution.getElem?_singleton, if_neg different])]
    have names := Substitution.contains_applyRow (singleton u ((Ty.var v).openRow forLeft)) forRight
    generalize (singleton u ((Ty.var v).openRow forLeft)).applyRow forRight = fields at names ⊢
    by_cases isLeft : ∃ w, rightTail = .var w ∧ u.id = w.id
    · obtain ⟨w, rfl, sameId⟩ := isLeft
      obtain ⟨others, isOpen, otherNames⟩ := value_singleton_openRow different sameId forLeft
      rw [isOpen]
      refine .sameTail (disjoint.congr otherNames names) ?_
      rintro ⟨othersEmpty, fieldsEmpty⟩
      exact extra ⟨Row.eq_empty_of_contains otherNames othersEmpty, Row.eq_empty_of_contains names fieldsEmpty⟩
    · have unbound : ∀ w, rightTail = .var w → (singleton u ((Ty.var v).openRow forLeft))[w.id]? = none := by
        intro w isVar
        rw [Substitution.getElem?_singleton, if_neg fun sameId => isLeft ⟨w, isVar, sameId⟩]
      obtain ⟨notRecord, ofVar⟩ := Substitution.apply_tail rightNotRecord unbound
      by_cases empty : fields = .empty
      · subst empty
        refine .fresh notRecord fun w isVar => ?_
        exact rightAbsent w (by rw [ofVar w isVar]; exact List.mem_singleton_self w)
      · rw [Ty.openRow_of_ne _ empty]
        exact .record notRecord rfl
  · have nonempty : forRight ≠ .empty := fun empty => extra ⟨rfl, empty⟩
    refine .record (Substitution.apply_tail rightNotRecord fun w isVar => ?_).1 ?_
    · rw [Substitution.getElem?_singleton, if_neg]
      exact (rightAbsent w (by rw [isVar]; exact List.mem_singleton_self w)).symm
    · rw [Ty.openRow_of_ne _ nonempty, Substitution.isRecord_apply (by simp)]
      rfl

/-! ## Derivations are balanced -/

/-- A variable is issued for a plan of two equations. -/
theorem TailPlan.afterSharedTail_eq {shared expected actual : Ty} {equations : List Equation}
    (plan : TailPlan shared expected.rowParts.1 actual.rowParts.1 expected.rowParts.2 actual.rowParts.2 equations)
    (issued : Nat) :
    afterSharedTail issued expected actual = if equations.length = 2 then issued + 1 else issued := by
  rw [afterSharedTail, needsSharedTail]
  generalize expected.rowParts = leftParts at plan ⊢
  generalize actual.rowParts = rightParts at plan ⊢
  obtain ⟨left, leftTail⟩ := leftParts
  obtain ⟨right, rightTail⟩ := rightParts
  cases plan with
  | shared different extra =>
    have kept : (!((left.without right).isEmpty && (right.without left).isEmpty)) = true := by
      rwa [Bool.not_eq_true', ← Bool.not_eq_true, Bool.and_eq_true, Row.isEmpty_iff, Row.isEmpty_iff]
    simp [different, kept]
  | _ => simp_all [Row.isEmpty]

section Shared

variable {live : Finset VarId} {start issued issued' : Nat} {fields first : Substitution} {leftTail : Ty}

theorem AllIssued.not_mem_pool (below : AllIssued live start) (le : start ≤ issued) :
    VarId.generated issued ∉ pool live start issued := fun inPool => Nat.lt_irrefl _ (below.grown le issued inPool)

theorem Ty.Over.ne_of_not_mem {type : Ty} {id : VarId} (inside : type.Over live) (outside : id ∉ live) :
    ∀ u ∈ type.occurrences, u.id ≠ id := fun u inType same => outside (same ▸ inside u inType)

theorem Confined.openRow_over (confined : Confined live start fields issued) {row : Row} (inside : row.Over live) :
    ((Ty.var (.generated issued)).openRow row).Over (pool live start (issued + 1)) := by
  have isNew : VarId.generated issued ∈ pool live start (issued + 1) :=
    mem_pool.mpr (.inr ⟨issued, confined.issues, Nat.lt_succ_self _, rfl⟩)
  exact (Ty.over_var.mpr isNew).openRow (inside.mono subset_pool)

/-- A new tail comes into the first equation on one side only, so that something is found. -/
theorem Confined.first_binds (confined : Confined live start fields issued) (below : AllIssued live start)
    (inside : leftTail.Over live) {forLeft : Row}
    (unified : Unified (issued + 1) (fields.apply leftTail)
      (fields.apply ((Ty.var (.generated issued)).openRow forLeft)) first issued') : first ≠ {} := by
  rintro rfl
  have new := below.not_mem_pool confined.issues
  rw [Substitution.apply_openRow_of_none (confined.unbound new)] at unified
  have isNew : (TypeVar.generated issued).Below (issued + 1) := by
    intro index same
    cases same
    exact Nat.lt_succ_self _
  obtain ⟨u, isTail, sameId⟩ := unified.tail_of_empty (Ty.rowParts_openRow_tail _ _) isNew
  have inRemaining := confined.apply_over (inside.mono subset_pool) u
    (Ty.mem_occurrences_of_tail isTail (List.mem_singleton_self u))
  rw [sameId] at inRemaining
  exact new (Finset.sdiff_subset inRemaining)

end Shared

/-- What a derivation promises of a substitution whose types are over some variables. -/
def Balances (issued : Nat) (expected actual : Ty) (found : Substitution) (issued' : Nat) : Prop :=
  Unified issued expected actual found issued' ∧
    ∀ ⦃live : Finset VarId⦄, AllIssued live issued → expected.Over live → actual.Over live →
      Balanced live issued found issued'

/-- A binding pays for itself: it issues nothing. -/
theorem Bound.balanced {live : Finset VarId} {expected actual : Ty} {found : Substitution}
    (bound : Bound expected actual found) (expectedOver : expected.Over live) (actualOver : actual.Over live)
    (issued : Nat) : Balanced live issued found issued := by
  have single : ∀ {v : TypeVar} {type : Ty}, v.id ∈ live → type.Over live → type.occurs v.id = false →
      Balanced live issued (singleton v type) issued := by
    intro v type inLive inside absent
    refine ⟨⟨Nat.le_refl _, singleton_settled absent, ?_, ?_⟩, .inr ?_⟩
    · rw [pool_self, Substitution.domain_singleton, Finset.singleton_subset_iff]
      exact inLive
    · intro id other isBound
      rw [Substitution.getElem?_singleton] at isBound
      split at isBound
      · cases isBound
        exact inside.mono subset_pool
      · cases isBound
    · rw [Substitution.domain_singleton]
      simp
  cases bound with
  | same => exact .empty live issued
  | left absent => exact single (Ty.over_var.mp expectedOver) actualOver absent
  | right _ absent => exact single (Ty.over_var.mp actualOver) expectedOver absent

/-- Steps that are balanced are balanced together. -/
theorem Chain.balanced {live : Finset VarId} {start issued issued' : Nat} {solved result : Substitution}
    {equations : List Equation} (chain : Chain Balances issued solved equations result issued')
    (below : AllIssued live start) (balanced : Balanced live start solved issued)
    (inside : ∀ equation ∈ equations, equation.Over live) : Balanced live start result issued' := by
  induction chain with
  | done => exact balanced
  | step first later ih =>
    obtain ⟨expectedOver, actualOver⟩ := inside _ (List.mem_cons_self ..)
    have next := first.2 (below.left balanced.issues)
      (balanced.apply_over (expectedOver.mono subset_pool)) (balanced.apply_over (actualOver.mono subset_pool))
    exact ih (balanced.compose below next) fun equation inRest => inside equation (List.mem_cons_of_mem _ inRest)

/-- The two equations for a shared tail bind enough to make up for it. -/
theorem Chain.shared_balanced {live : Finset VarId} {start issued issued' : Nat} {fields result : Substitution}
    {leftTail rightTail : Ty} {forLeft forRight : Row}
    (chain : Chain Balances (issued + 1) fields [⟨leftTail, (Ty.var (.generated issued)).openRow forLeft⟩,
      ⟨rightTail, (Ty.var (.generated issued)).openRow forRight⟩] result issued')
    (below : AllIssued live start) (balanced : Balanced live start fields issued)
    (leftNotRecord : leftTail.isRecord = false) (rightNotRecord : rightTail.isRecord = false)
    (leftOver : leftTail.Over live) (rightOver : rightTail.Over live) (forLeftOver : forLeft.Over live)
    (forRightOver : forRight.Over live) (disjoint : forLeft.Disjoint forRight)
    (extra : ¬(forLeft = .empty ∧ forRight = .empty)) : Balanced live start result issued' := by
  cases chain with
  | step first later =>
    cases later with
    | step second done =>
      cases done
      have wider := balanced.toConfined.mono (Nat.le_succ _)
      have ofFirst := first.2 (below.left wider.issues) (wider.apply_over (leftOver.mono subset_pool))
        (wider.apply_over (balanced.openRow_over forLeftOver))
      have both := wider.compose below ofFirst.toConfined
      have ofSecond := second.2 (below.left both.issues) (both.apply_over (rightOver.mono subset_pool))
        (both.apply_over ((balanced.openRow_over forRightOver).mono (pool_mono ofFirst.issues)))
      refine balanced.share below ofFirst ofSecond (balanced.first_binds below leftOver first.1) ?_
      by_cases nothing : fields = {}
      · subst nothing
        right
        have unifiedFirst := first.1
        have unifiedSecond := second.1
        rw [Substitution.apply_empty, Substitution.apply_empty] at unifiedFirst
        rw [Substitution.compose_empty] at unifiedSecond
        have new : VarId.generated issued ∉ live :=
          fun inLive => below.not_mem_pool balanced.issues (subset_pool inLive)
        exact (unifiedFirst.second_shallow leftNotRecord rightNotRecord (leftOver.ne_of_not_mem new)
          (rightOver.ne_of_not_mem new) disjoint extra).binds unifiedSecond
      · exact .inl nothing

/-- What each of two rows has alone is disjoint. -/
theorem Row.without_disjoint_without (left right : Row) : (right.without left).Disjoint (left.without right) := by
  intro key present
  rw [Row.contains_without, Bool.and_eq_true] at present
  rw [Row.contains_without, present.2]
  rfl

/-- The equations for the tails of two rows are balanced: a shared tail is paid for by the two tails above it. -/
theorem Chain.rows_balanced {live : Finset VarId} {start issued issued' : Nat} {fields found : Substitution}
    {left right : Row} {leftTail rightTail : Option Ty} {equations : List Equation}
    (chain : Chain Balances (if equations.length = 2 then issued + 1 else issued) fields equations found issued')
    (plan : TailPlan (.var (.generated issued)) left right leftTail rightTail equations)
    (below : AllIssued live start) (balanced : Balanced live start fields issued) (leftOver : left.Over live)
    (rightOver : right.Over live) (leftTailOver : ∀ tail, leftTail = some tail → tail.isRecord = false ∧ tail.Over live)
    (rightTailOver : ∀ tail, rightTail = some tail → tail.isRecord = false ∧ tail.Over live) :
    Balanced live start found issued' := by
  cases plan with
  | closed | same => exact Chain.balanced chain below balanced (by simp)
  | closedRight =>
    refine Chain.balanced chain below balanced (List.forall_mem_singleton.mpr ⟨(leftTailOver _ rfl).2, ?_⟩)
    exact rightOver.without left
  | closedLeft =>
    refine Chain.balanced chain below balanced (List.forall_mem_singleton.mpr ⟨(rightTailOver _ rfl).2, ?_⟩)
    exact leftOver.without right
  | meet =>
    exact Chain.balanced chain below balanced
      (List.forall_mem_singleton.mpr ⟨(leftTailOver _ rfl).2, (rightTailOver _ rfl).2⟩)
  | shared _ extra =>
    exact Chain.shared_balanced chain below balanced (leftTailOver _ rfl).1 (rightTailOver _ rfl).1
      (leftTailOver _ rfl).2 (rightTailOver _ rfl).2 (rightOver.without left) (leftOver.without right)
      (Row.without_disjoint_without left right) fun nothing => extra nothing.symm

/-- A derivation that finds anything binds more variables than it issues. -/
theorem Unified.balanced {live : Finset VarId} {issued issued' : Nat} {expected actual : Ty} {found : Substitution}
    (unified : Unified issued expected actual found issued') (below : AllIssued live issued)
    (expectedOver : expected.Over live) (actualOver : actual.Over live) : Balanced live issued found issued' := by
  refine Unified.induction (motive := fun issued expected actual found issued' => ∀ ⦃live : Finset VarId⦄,
    AllIssued live issued → expected.Over live → actual.Over live → Balanced live issued found issued')
    ?_ ?_ ?_ ?_ unified below expectedOver actualOver
  · intro issued expected actual found bound live below expectedOver actualOver
    exact bound.balanced expectedOver actualOver issued
  · intro issued type _ live _ _ _
    exact .empty live issued
  · intro issued issued' expected actual equations found split chain live below expectedOver actualOver
    exact Chain.balanced chain below (.empty live issued) (components_over split expectedOver actualOver)
  · intro issued afterFields issued' expected actual equations fields found _ _ common planned tails live below
      expectedOver actualOver
    have fieldsBalanced := Chain.balanced common below (.empty live issued)
      (fieldEquations_over expectedOver.fields actualOver.fields)
    have plan := tailEquations_eq_ok_iff.mp planned
    rw [plan.afterSharedTail_eq] at tails
    exact Chain.rows_balanced tails plan below fieldsBalanced expectedOver.fields actualOver.fields
      (fun tail isTail => ⟨Ty.isRecord_tail isTail, expectedOver.tail isTail⟩)
      (fun tail isTail => ⟨Ty.isRecord_tail isTail, actualOver.tail isTail⟩)

end RowInference
