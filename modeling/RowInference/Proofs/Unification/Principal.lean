import RowInference.Proofs.Unification.Tails

/-! # Unifiers of kinded types are most general

Every derivation of a unifier for kinded types is an advance: what is left is kinded again, and no admissible valuation
that makes the two types equal is lost.
-/

namespace RowInference

open Substitution (singleton)

variable {kinds : Kinding} {issued : Nat}

/-- A kinded record is closed or has a variable below its fields. -/
theorem Ty.Kinded.record_cases {type : Ty} (kinded : type.Kinded kinds) (record : type.isRecord = true) :
    (∃ fields, type = .record fields) ∨ ∃ id fields, type = .extension (.var ⟨id, none⟩) fields := by
  cases type <;> simp only [isRecord, reduceCtorEq] at record
  case record fields => exact .inl ⟨fields, rfl⟩
  case extension base fields =>
    obtain ⟨⟨id, rfl, _⟩, _⟩ := kinded
    exact .inr ⟨id, fields, rfl⟩

theorem rowParts_tail {id : VarId} {fields : Row}
    (kinded : (Ty.extension (.var ⟨id, none⟩) fields).Kinded kinds) :
    (Ty.extension (.var ⟨id, none⟩) fields).rowParts = (fields, some (.var ⟨id, none⟩)) :=
  Ty.rowParts_extension rfl kinded.2.sorted

/-- The base of a kinded open record is a tail below exactly these fields. -/
theorem Ty.Kinded.tail_kind {id : VarId} {fields : Row}
    (kinded : (Ty.extension (.var ⟨id, none⟩) fields).Kinded kinds) : kinds id = some (.tail fields) := by
  obtain ⟨⟨_, base, isTail⟩, _⟩ := kinded
  cases base
  exact isTail

/-- Solving the common fields leaves a tail alone that does not occur in the fields. -/
theorem Solution.tail_untouched {afterFields : Nat} {expected actual : Ty} {fields : Substitution}
    (common : Solution issued {} (fieldEquations expected actual) fields afterFields)
    (below : kinds.signature.Issued issued) (expectedRecord : expected.isRecord = true)
    (actualRecord : actual.isRecord = true) (expectedKinded : expected.Kinded kinds)
    (actualKinded : actual.Kinded kinds) {id : VarId} {row : Row} (isTail : kinds id = some (.tail row))
    (absentLeft : ∀ v ∈ expected.rowParts.1.occurrences, v.id ≠ id)
    (absentRight : ∀ v ∈ actual.rowParts.1.occurrences, v.id ≠ id) : fields.Untouched id := by
  refine common.untouched below ?_ (fieldEquations_within (rowParts_within expectedRecord expectedKinded.within).1
    (rowParts_within actualRecord actualKinded.within).1) (fieldEquations_absent absentLeft absentRight)
  rw [signature_ne_none_iff, isTail]
  exact Option.some_ne_none _

/-- Two open records that read the same, with different tails, do not contain each other's tail in their fields. -/
theorem Ty.Kinded.tails_absent {leftId rightId : VarId} {left right : Row} {valuation : Valuation}
    (leftKinded : (Ty.extension (.var ⟨leftId, none⟩) left).Kinded kinds)
    (rightKinded : (Ty.extension (.var ⟨rightId, none⟩) right).Kinded kinds) (different : leftId ≠ rightId)
    (same : (Ty.extension (.var ⟨leftId, none⟩) left).read valuation
      = (Ty.extension (.var ⟨rightId, none⟩) right).read valuation) :
    (∀ v ∈ right.occurrences, v.id ≠ leftId) ∧ ∀ v ∈ left.occurrences, v.id ≠ rightId := by
  have inRight := rightKinded.absent_of_read_eq leftKinded.tail_kind same (by simp [Kind.use, different.symm])
  have inLeft := leftKinded.absent_of_read_eq rightKinded.tail_kind same.symm (by simp [Kind.use, different])
  exact ⟨fun v inRow => inRight v (List.mem_append_right _ inRow),
    fun v inRow => inLeft v (List.mem_append_right _ inRow)⟩

/-- After the common fields of two records have been solved, the tails follow. -/
theorem rows_advance {afterFields issued' : Nat} {expected actual : Ty} {equations : List Equation}
    {fields found : Substitution} {kinds₁ : Kinding} (below : kinds.signature.Issued issued)
    (expectedRecord : expected.isRecord = true) (actualRecord : actual.isRecord = true)
    (expectedKinded : expected.Kinded kinds) (actualKinded : actual.Kinded kinds)
    (common : Solution issued {} (fieldEquations expected actual) fields afterFields)
    (planned : tailEquations (.var (.generated afterFields)) expected actual = .ok equations)
    (tails : Solution (afterSharedTail afterFields expected actual) fields equations found issued')
    (sofar : Advance kinds [⟨expected, actual⟩] issued fields afterFields kinds₁ [⟨expected, actual⟩])
    (paid : Paid issued fields afterFields) :
    ∃ kinds', Advance kinds [⟨expected, actual⟩] issued found issued' kinds' [⟨expected, actual⟩] ∧
      Paid issued found issued' := by
  have unifier := (Unified.rows expectedRecord actualRecord common planned tails).unifier below expectedKinded.within
    actualKinded.within
  have same := unifier.unifies (Substitution.solvedBy_valuation unifier.respects.proper unifier.settled.acyclic)
  have plan := tailEquations_eq_ok_iff.mp planned
  have leftWithin := (rowParts_within expectedRecord expectedKinded.within).1
  have rightWithin := (rowParts_within actualRecord actualKinded.within).1
  have fieldsWithin := fieldEquations_within leftWithin rightWithin
  have solver := common.solver below Substitution.respects_empty Substitution.settled_empty fieldsWithin
  have agree := agree_of_fieldEquations
    (solver.solves (Substitution.solvedBy_valuation solver.respects.proper solver.settled.acyclic)).2
  have merged := agree.read_merge leftWithin.sorted rightWithin.sorted
  have untouched := fun {id : VarId} {row : Row} (isTail : kinds id = some (.tail row)) =>
    common.tail_untouched below expectedRecord actualRecord expectedKinded actualKinded isTail
  -- Each record is closed or has a tail. Solving the common fields has not touched the tails, which are not in them.
  rcases expectedKinded.record_cases expectedRecord with ⟨left, rfl⟩ | ⟨leftId, left, rfl⟩ <;>
    rcases actualKinded.record_cases actualRecord with ⟨right, rfl⟩ | ⟨rightId, right, rfl⟩
  · dsimp only [Ty.rowParts] at plan
    cases plan
    have noTail : afterSharedTail afterFields (.record left) (.record right) = afterFields := rfl
    rw [noTail] at tails
    obtain ⟨rfl, rfl⟩ := tails.of_nil
    exact ⟨kinds₁, sofar, paid⟩
  · simp only [rowParts_tail actualKinded] at plan untouched
    dsimp only [Ty.rowParts] at plan untouched
    cases plan with
    | closedLeft onlyRight =>
      have noTail : afterSharedTail afterFields (.record left) (.extension (.var ⟨rightId, none⟩) right)
          = afterFields := rfl
      rw [noTail] at tails
      have absent := expectedKinded.absent_of_read_eq actualKinded.tail_kind same.symm (by simp [Kind.use])
      refine sofar.close paid below actualKinded expectedKinded
        (untouched actualKinded.tail_kind absent actualKinded.tail_absent) tails ?_
      intro valuation solved
      exact (solved _ (List.mem_singleton_self _)).symm
  · simp only [rowParts_tail expectedKinded] at plan untouched
    dsimp only [Ty.rowParts] at plan untouched
    cases plan with
    | closedRight onlyLeft =>
      have noTail : afterSharedTail afterFields (.extension (.var ⟨leftId, none⟩) left) (.record right)
          = afterFields := rfl
      rw [noTail] at tails
      have absent := actualKinded.absent_of_read_eq expectedKinded.tail_kind same (by simp [Kind.use])
      refine sofar.close paid below expectedKinded actualKinded
        (untouched expectedKinded.tail_kind expectedKinded.tail_absent absent) tails ?_
      intro valuation solved
      exact solved _ (List.mem_singleton_self _)
  · simp only [rowParts_tail expectedKinded, rowParts_tail actualKinded] at plan untouched merged
    have leads : ∀ ⦃valuation : Valuation⦄, (∀ equation ∈ [Equation.mk (.extension (.var ⟨leftId, none⟩) left)
        (.extension (.var ⟨rightId, none⟩) right)], equation.SolvedBy valuation) →
        (Ty.extension (.var ⟨leftId, none⟩) left).read valuation
          = (Ty.extension (.var ⟨rightId, none⟩) right).read valuation :=
      fun valuation solved => solved _ (List.mem_singleton_self _)
    -- A new tail is issued only if the tails differ and a field is missing on one side.
    have noTail : (left.without right = .empty ∧ right.without left = .empty) ∨ leftId = rightId →
        afterSharedTail afterFields (.extension (.var ⟨leftId, none⟩) left) (.extension (.var ⟨rightId, none⟩) right)
          = afterFields := by
      intro fitting
      rw [afterSharedTail, if_neg]
      rw [needsSharedTail_iff]
      rintro ⟨leftTail, rightTail, isLeft, isRight, different, extra⟩
      simp only [rowParts_tail expectedKinded, rowParts_tail actualKinded, Option.some.injEq] at isLeft isRight extra
      subst isLeft isRight
      rcases fitting with none | rfl
      · exact extra none
      · exact different rfl
    cases plan with
    | same onlyLeft onlyRight =>
      rw [noTail (.inr rfl)] at tails
      obtain ⟨rfl, rfl⟩ := tails.of_nil
      exact ⟨kinds₁, sofar, paid⟩
    | meet tailsDiffer onlyLeft onlyRight =>
      have different : leftId ≠ rightId := fun sameId => tailsDiffer (by rw [sameId])
      obtain ⟨absentRight, absentLeft⟩ := expectedKinded.tails_absent actualKinded different same
      rw [noTail (.inl ⟨onlyLeft, onlyRight⟩)] at tails
      rw [onlyLeft, onlyRight, Row.empty_extend expectedKinded.2.sorted,
        Row.empty_extend actualKinded.2.sorted] at merged
      exact sofar.meet paid below different expectedKinded actualKinded
        (untouched expectedKinded.tail_kind expectedKinded.tail_absent absentRight)
        (untouched actualKinded.tail_kind absentLeft actualKinded.tail_absent) merged tails leads
    | shared tailsDiffer extra =>
      have different : leftId ≠ rightId := fun sameId => tailsDiffer (by rw [sameId])
      obtain ⟨absentRight, absentLeft⟩ := expectedKinded.tails_absent actualKinded different same
      have needed : needsSharedTail (.extension (.var ⟨leftId, none⟩) left)
          (.extension (.var ⟨rightId, none⟩) right) = true := by
        rw [needsSharedTail_iff, rowParts_tail expectedKinded, rowParts_tail actualKinded]
        exact ⟨_, _, rfl, rfl, tailsDiffer, extra⟩
      rw [afterSharedTail, if_pos needed] at tails
      exact sofar.share paid below different expectedKinded actualKinded
        (untouched expectedKinded.tail_kind expectedKinded.tail_absent absentRight)
        (untouched actualKinded.tail_kind absentLeft actualKinded.tail_absent) absentRight merged tails leads

/-- The equations between the parts of kinded types are kinded. -/
theorem components_kinded {expected actual : Ty} {equations : List Equation}
    (split : expected.components actual = some equations) (expectedKinded : expected.Kinded kinds)
    (actualKinded : actual.Kinded kinds) :
    ∀ equation ∈ equations, equation.expected.Kinded kinds ∧ equation.actual.Kinded kinds := by
  cases expected <;> cases actual <;> simp only [Ty.components, Option.some.injEq, reduceCtorEq] at split
  all_goals
    subst split
    simp_all [Ty.Kinded]

/-- The fields that unification sees in a flat record are those it shows. -/
theorem Ty.Within.rowParts_fst {sig : Signature} {type : Ty} (within : type.Within sig)
    (record : type.isRecord = true) :
    type.rowParts.1 = type.row := by
  cases type <;> simp only [isRecord, reduceCtorEq] at record
  case record fields => rfl
  case extension base fields => rw [rowParts_extension within.flat.1 within.canonical.2.sorted]; rfl

/-- So are the equations between the common fields of kinded records. -/
theorem fieldEquations_kinded {expected actual : Ty} (expectedRecord : expected.isRecord = true)
    (actualRecord : actual.isRecord = true) (expectedKinded : expected.Kinded kinds)
    (actualKinded : actual.Kinded kinds) :
    ∀ equation ∈ fieldEquations expected actual, equation.expected.Kinded kinds ∧ equation.actual.Kinded kinds := by
  have rows : ∀ {type : Ty}, type.isRecord = true → type.Kinded kinds → type.rowParts.1.Kinded kinds := by
    intro type record kinded
    rw [kinded.within.rowParts_fst record]
    rcases kinded.record_cases record with ⟨fields, rfl⟩ | ⟨id, fields, rfl⟩
    · exact kinded
    · exact kinded.2
  intro equation member
  obtain ⟨pair, inCommon, rfl⟩ := List.mem_map.mp member
  obtain ⟨key, inLeft, inRight⟩ := Row.mem_common inCommon
  exact ⟨(rows expectedRecord expectedKinded).all _ inLeft, (rows actualRecord actualKinded).all.get? inRight⟩

/-- Where records are read as one, so are the types of their common fields. -/
theorem fieldEquations_solved {sig : Signature} {expected actual : Ty} {valuation : Valuation}
    (expectedRecord : expected.isRecord = true) (actualRecord : actual.isRecord = true)
    (expectedWithin : expected.Within sig) (actualWithin : actual.Within sig)
    (same : expected.read valuation = actual.read valuation) :
    ∀ equation ∈ fieldEquations expected actual, equation.SolvedBy valuation := by
  have leftRow := expectedWithin.rowParts_fst expectedRecord
  have leftSorted := Ty.row_sorted expectedWithin.canonical
  apply fieldEquations_of_agree
  · rw [leftRow]
    exact leftSorted
  · rw [leftRow, actualWithin.rowParts_fst actualRecord]
    exact agree_of_read_eq expected actual expectedRecord actualRecord leftSorted
      (Ty.row_sorted actualWithin.canonical) same

/-- What was found takes kinded types to kinded types. -/
theorem Advance.apply_kinded {issued₁ : Nat} {solved : Substitution} {posed ensured : List Equation} {kinds₁ : Kinding}
    (sofar : Advance kinds posed issued solved issued₁ kinds₁ ensured) {type : Ty} (kinded : type.Kinded kinds) :
    (solved.apply type).Kinded kinds₁ := by
  rw [Substitution.apply_eq_mapVars kinded.within.flat]
  exact sofar.carries.kinded kinded

/-- Nothing has been solved of an equation yet. -/
theorem advance_equation {expected actual : Ty} (expectedKinded : expected.Kinded kinds)
    (actualKinded : actual.Kinded kinds) :
    Advance kinds [⟨expected, actual⟩] issued {} issued kinds [⟨expected, actual⟩] :=
  advance_refl (List.forall_mem_singleton.mpr ⟨expectedKinded.within, actualKinded.within⟩)

/-- Solving one more equation, which follows from those posed. -/
theorem Advance.next {issued₁ issued₂ : Nat} {solved found : Substitution} {posed : List Equation}
    {kinds₁ kinds₂ : Kinding} {equation : Equation}
    (sofar : Advance kinds posed issued solved issued₁ kinds₁ posed) (below : kinds.signature.Issued issued)
    (expectedKinded : equation.expected.Kinded kinds) (actualKinded : equation.actual.Kinded kinds)
    (next : Advance kinds₁ [⟨solved.apply equation.expected, solved.apply equation.actual⟩] issued₁ found
      issued₂ kinds₂ [])
    (implied : ∀ ⦃valuation : Valuation⦄, (∀ equation ∈ posed, equation.SolvedBy valuation) →
      equation.SolvedBy valuation) :
    Advance kinds posed issued (found.compose solved) issued₂ kinds₂ posed := by
  have together := sofar.compose next below <| by
    intro valuation _ posedSolved solvedSolved
    have readBack : ∀ {type : Ty}, type.Kinded kinds → (solved.apply type).read valuation = type.read valuation :=
      fun typeKinded => Substitution.read_apply sofar.respects.proper solvedSolved typeKinded.within.canonical
    exact List.forall_mem_singleton.mpr <|
      (readBack expectedKinded).trans ((implied posedSolved).trans (readBack actualKinded).symm)
  rwa [List.append_nil] at together

mutual

/-- A unifier of kinded types is an advance. -/
theorem Unified.advance {issued issued' : Nat} {expected actual : Ty} {found : Substitution} {kinds : Kinding}
    (unified : Unified issued expected actual found issued') (below : kinds.signature.Issued issued)
    (expectedKinded : expected.Kinded kinds) (actualKinded : actual.Kinded kinds) :
    ∃ kinds', Advance kinds [⟨expected, actual⟩] issued found issued' kinds' [] ∧ Paid issued found issued' :=
  match unified with
  | .bind bound => by
    obtain ⟨kinds', advance⟩ := bound.advance expectedKinded actualKinded
    exact ⟨kinds', advance, Nat.le_add_right _ _⟩
  | .atom _ => by
    have nothing : Advance kinds [] issued {} issued kinds [] := advance_refl (by simp)
    exact ⟨kinds, nothing.weaken (by simp) (by simp), .refl _⟩
  | .parts split solution => by
    have kinded := components_kinded split expectedKinded actualKinded
    have start : Advance kinds _ issued {} issued kinds _ := advance_refl fun equation member =>
      ⟨(kinded equation member).1.within, (kinded equation member).2.within⟩
    obtain ⟨kinds', advance, paid⟩ := solution.advance below start (.refl _) kinded fun _ solved => solved
    refine ⟨kinds', advance.weaken ?_ (by simp), paid⟩
    intro valuation solved
    exact (components_read split).mp (solved _ (List.mem_singleton_self _))
  | .rows expectedRecord actualRecord common planned tails => by
    obtain ⟨kinds₁, sofar, paidFields⟩ := common.advance below
      (advance_equation expectedKinded actualKinded) (.refl _)
      (fieldEquations_kinded expectedRecord actualRecord expectedKinded actualKinded) fun valuation solved =>
        fieldEquations_solved expectedRecord actualRecord expectedKinded.within actualKinded.within
          (solved _ (List.mem_singleton_self _))
    obtain ⟨kinds', advance, paid⟩ := rows_advance below expectedRecord actualRecord expectedKinded actualKinded common
      planned tails sofar paidFields
    exact ⟨kinds', advance.weaken (fun _ solved => solved) (by simp), paid⟩

/-- Solving kinded equations that follow from those posed continues an advance. -/
theorem Solution.advance {issued issued₁ issued' : Nat} {solved result : Substitution}
    {posed equations : List Equation} {kinds kinds₁ : Kinding}
    (solution : Solution issued₁ solved equations result issued') (below : kinds.signature.Issued issued)
    (sofar : Advance kinds posed issued solved issued₁ kinds₁ posed) (paid : Paid issued solved issued₁)
    (kinded : ∀ equation ∈ equations, equation.expected.Kinded kinds ∧ equation.actual.Kinded kinds)
    (implied : ∀ ⦃valuation : Valuation⦄, (∀ equation ∈ posed, equation.SolvedBy valuation) →
      ∀ equation ∈ equations, equation.SolvedBy valuation) :
    ∃ kinds', Advance kinds posed issued result issued' kinds' posed ∧ Paid issued result issued' :=
  match solution with
  | .done => ⟨kinds₁, sofar, paid⟩
  | @Solution.step _ _ _ _ _ _ equation rest first later => by
    obtain ⟨expectedKinded, actualKinded⟩ := kinded equation (List.mem_cons_self ..)
    obtain ⟨kinds₂, next, paidNext⟩ := first.advance (sofar.below below) (sofar.apply_kinded expectedKinded)
      (sofar.apply_kinded actualKinded)
    have together := sofar.next below expectedKinded actualKinded next fun _ posedSolved =>
      implied posedSolved equation (List.mem_cons_self ..)
    exact later.advance below together (paid.compose paidNext (sofar.apart below next.respects))
      (fun other inRest => kinded other (List.mem_cons_of_mem _ inRest))
      fun valuation posedSolved other inRest => implied posedSolved other (List.mem_cons_of_mem _ inRest)

end

end RowInference
