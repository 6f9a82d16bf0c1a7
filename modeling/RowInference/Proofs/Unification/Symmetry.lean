import RowInference.Proofs.Unification.Generality

/-! # The sides of a unification

As long as no row loses a field, the two sides of a unification can be swapped. Where a variable below some fields
becomes a record that has one of them already, its type for that field is dropped, and what would have made the types
infinite can be dropped with it. Then the order in which the tails are bound matters, and with it the order of the
sides.
-/

namespace RowInference

/-- Under the substitution a row without the fields on top stands below every open record in the type. -/
def Substitution.KeepsRows (subst : Substitution) (type : Ty) : Prop :=
  ∀ part ∈ type.extensions, (subst.apply part.1).TailFor part.2

section Swap

variable {left right : Ty} {supply after : Supply} {found : Substitution}

/-- Where rows are kept, the values of variables can stand below the fields on top of them. -/
theorem Substitution.KeepsRows.stacked {type : Ty} {valuation : Valuation} (keeps : found.KeepsRows type)
    (regular : type.Regular) (values : ∀ v ∈ type.occurrences, valuation.value v = found.value v) :
    type.Stacked valuation := by
  refine regular.stacked fun part member v isVar => ?_
  have isTail := keeps part member
  rw [isVar] at isTail
  rw [values v (Ty.mem_occurrences_of_base member isVar)]
  exact isTail

/-- The valuation of a unifier, with values that depend on the identity of variables alone. -/
theorem Unifier.exists_valuation {issued issued' : Nat} (coherent : Equation.Coherent issued ⟨left, right⟩)
    (unifier : Unifier (Signature.ofVars (Equation.vars ⟨left, right⟩)) issued left right found issued') :
    ∃ valuation : Valuation, valuation.Uniform ∧
      ∀ v ∈ Equation.vars ⟨left, right⟩, valuation.value v = found.value v ∧
        (valuation.value v).Meets v.constraint := by
  let constraintOf (id : VarId) : Option Constraint := (Signature.ofVars (Equation.vars ⟨left, right⟩) id).getD none
  let valuation : Valuation := ⟨fun v => found.value ⟨v.id, constraintOf v.id⟩,
    fun v => Substitution.value_canonical unifier.respects.proper.canonical _⟩
  refine ⟨valuation, fun v u same => ?_, fun v member => ?_⟩
  · change found.value ⟨v.id, constraintOf v.id⟩ = found.value ⟨u.id, constraintOf u.id⟩
    rw [same]
  · have known := coherent.signature_of_mem member
    have isConstraint : constraintOf v.id = v.constraint := congrArg (Option.getD · none) known
    have shown : valuation.value v = found.value v := by
      change found.value ⟨v.id, constraintOf v.id⟩ = found.value v
      rw [isConstraint]
    rw [shown]
    exact ⟨rfl, (unifier.respects.value (Signature.sub_grow coherent.signature_issued issued' known)).2⟩

/-- If a unifier keeps the rows of both types, then there is one for the swapped sides, and it keeps them too. -/
theorem unify_swap (coherent : Equation.Coherent supply.issued ⟨left, right⟩) (leftRegular : left.Regular)
    (rightRegular : right.Regular) (success : unify left right supply = (.ok found, after))
    (keepsLeft : found.KeepsRows left) (keepsRight : found.KeepsRows right) :
    ∃ swapped after', unify right left supply = (.ok swapped, after') ∧ swapped.KeepsRows left ∧
      swapped.KeepsRows right := by
  have unifier := unifier_of_unify coherent leftRegular.flat rightRegular.flat success
  obtain ⟨valuation, uniform, values⟩ := unifier.exists_valuation coherent
  have ofLeft : ∀ v ∈ left.occurrences, valuation.value v = found.value v :=
    fun v inType => (values v (List.mem_append_left _ inType)).1
  have ofRight : ∀ v ∈ right.occurrences, valuation.value v = found.value v :=
    fun v inType => (values v (List.mem_append_right _ inType)).1
  have same : right.read valuation = left.read valuation := by
    rw [Ty.read, Ty.read, Ty.mapVars_congr ofLeft, Ty.mapVars_congr ofRight,
      ← Substitution.apply_eq_mapVars leftRegular.flat, ← Substitution.apply_eq_mapVars rightRegular.flat]
    exact (unifier.apply_eq leftRegular.flat rightRegular.flat).symm
  have swap : ∀ v ∈ Equation.vars ⟨right, left⟩, v ∈ Equation.vars ⟨left, right⟩ :=
    fun v member => List.mem_append.mpr (List.mem_append.mp member).symm
  -- The unifier is a choice of types for the swapped sides, and what is found there is at least as general.
  obtain ⟨swapped, after', later, ran, _, agrees, _, fits⟩ := unify_generalizes coherent.symm uniform
    (fun v member => (values v (swap v member)).2) (keepsRight.stacked rightRegular ofRight)
    (keepsLeft.stacked leftRegular ofLeft) same
  have keeps : ∀ {type : Ty}, (∀ v ∈ type.occurrences, v ∈ Equation.vars ⟨left, right⟩) → type.Regular →
      found.KeepsRows type → swapped.KeepsRows type := by
    intro type inVars regular kept part member
    obtain ⟨⟨v, isVar⟩, _⟩ := regular.extended part member
    have known := inVars v (Ty.mem_occurrences_of_base member isVar)
    have isTail := kept part member
    rw [isVar] at isTail ⊢
    refine (fits.value_stacked v).tailFor_of_read ?_
    rw [Substitution.read_value fits.respects.proper fits.solved, agrees (coherent.issued v known), (values v known).1]
    exact isTail
  exact ⟨swapped, after', ran, keeps (fun v => List.mem_append_left _) leftRegular keepsLeft,
    keeps (fun v => List.mem_append_right _) rightRegular keepsRight⟩

/-- The two sides of a unification are interchangeable as far as the rows of both types are kept. -/
theorem unify_interchangeable (coherent : Equation.Coherent supply.issued ⟨left, right⟩) (leftRegular : left.Regular)
    (rightRegular : right.Regular) :
    (∃ found after, unify left right supply = (.ok found, after) ∧ found.KeepsRows left ∧ found.KeepsRows right) ↔
      ∃ found after, unify right left supply = (.ok found, after) ∧ found.KeepsRows left ∧ found.KeepsRows right := by
  constructor
  · rintro ⟨found, after, success, keepsLeft, keepsRight⟩
    exact unify_swap coherent leftRegular rightRegular success keepsLeft keepsRight
  · rintro ⟨found, after, success, keepsLeft, keepsRight⟩
    obtain ⟨swapped, after', ran, keepsRight, keepsLeft⟩ :=
      unify_swap coherent.symm rightRegular leftRegular success keepsRight keepsLeft
    exact ⟨swapped, after', ran, keepsLeft, keepsRight⟩

end Swap

/-- Two open records, one with a field more than the other. -/
def wider : Equation where
  expected := .extension (.var (.generated 0)) (.field "a" (.tuple (.var (.generated 2)) .int) .empty)
  actual := .extension (.var (.generated 1)) (.field "a" (.tuple .char (.var (.generated 3)))
    (.field "b" (.var (.generated 2)) .empty))

theorem unify_interchangeable_wider :
    (∃ found after, unify wider.expected wider.actual ⟨4⟩ = (.ok found, after) ∧ found.KeepsRows wider.expected ∧
      found.KeepsRows wider.actual) ∧
    ∃ found after, unify wider.actual wider.expected ⟨4⟩ = (.ok found, after) ∧ found.KeepsRows wider.expected ∧
      found.KeepsRows wider.actual := by
  have coherent : wider.Coherent 4 := by
    refine ⟨?_, ?_, by decide, ?_⟩
    · simp [wider, Ty.Canonical, Row.Canonical, Row.toList]
    · simp [wider, Ty.Canonical, Row.Canonical, Row.toList]
      decide
    · simp [wider, Equation.vars, Ty.occurrences, Row.occurrences, TypeVar.Below, TypeVar.generated]
  have leftRegular : wider.expected.Regular := ⟨coherent.expected, by simp [wider, Ty.extensions, Row.extensions]⟩
  have rightRegular : wider.actual.Regular := ⟨coherent.actual, by simp [wider, Ty.extensions, Row.extensions]⟩
  have tails : (unify wider.expected wider.actual ⟨4⟩).1.toOption.map (fun found =>
      (found.apply (.var (.generated 0)), found.apply (.var (.generated 1))))
        = some (.extension (.var (.generated 4)) (.field "b" .char .empty), .var (.generated 4)) := by
    rw [unify, unifyWithin_of_isRecord _ rfl rfl]
    cbv
  have oneWay : ∃ found after, unify wider.expected wider.actual ⟨4⟩ = (.ok found, after) ∧
      found.KeepsRows wider.expected ∧ found.KeepsRows wider.actual := by
    rcases run : unify wider.expected wider.actual ⟨4⟩ with ⟨error | found, after⟩ <;> rw [run] at tails
    · cases tails
    · simp only [Except.toOption, Option.map_some, Option.some.injEq, Prod.mk.injEq] at tails
      have ofLeft : wider.expected.extensions
          = [(.var (.generated 0), .field "a" (.tuple (.var (.generated 2)) .int) .empty)] := rfl
      have ofRight : wider.actual.extensions = [(.var (.generated 1), .field "a" (.tuple .char (.var (.generated 3)))
          (.field "b" (.var (.generated 2)) .empty))] := rfl
      refine ⟨found, after, rfl, ?_, ?_⟩
      · rw [Substitution.KeepsRows, ofLeft, List.forall_mem_singleton, tails.1]
        decide
      · rw [Substitution.KeepsRows, ofRight, List.forall_mem_singleton, tails.2]
        decide
  exact ⟨oneWay, (unify_interchangeable coherent leftRegular rightRegular).mp oneWay⟩

/-- The tail of each record occurs in the fields of the record; on the right it has a field on top that the left has. -/
def overlapping : Equation where
  expected := .extension (.var (.generated 0)) (.field "c" (.var (.generated 0)) .empty)
  actual :=
    .extension (.var (.generated 1)) (.field "b" (.extension (.var (.generated 1)) (.field "c" .int .empty)) .empty)

/-- With overlapping rows the sides are not interchangeable. -/
theorem unify_overlapping : overlapping.Coherent 2 ∧ overlapping.expected.Regular ∧ overlapping.actual.Regular ∧
    (unify overlapping.expected overlapping.actual ⟨2⟩).1.isOk = false ∧
    (unify overlapping.actual overlapping.expected ⟨2⟩).1.isOk = true := by
  have coherent : overlapping.Coherent 2 := by
    refine ⟨?_, ?_, by decide, ?_⟩
    · simp [overlapping, Ty.Canonical, Row.Canonical, Row.toList]
    · simp [overlapping, Ty.Canonical, Row.Canonical, Row.toList]
    · simp [overlapping, Equation.vars, Ty.occurrences, Row.occurrences, TypeVar.Below, TypeVar.generated]
  refine ⟨coherent, ⟨coherent.expected, ?_⟩, ⟨coherent.actual, ?_⟩, ?_, ?_⟩
  · simp [overlapping, Ty.extensions, Row.extensions]
  · simp [overlapping, Ty.extensions, Row.extensions]
  · rw [unify, unifyWithin_of_isRecord _ rfl rfl]
    cbv
  · rw [unify, unifyWithin_of_isRecord _ rfl rfl]
    cbv

end RowInference
