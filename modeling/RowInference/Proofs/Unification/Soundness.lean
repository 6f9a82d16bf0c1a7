import RowInference.Proofs.Types.Signature
import RowInference.Proofs.Unification.Derivation
import RowInference.Proofs.Unification.Rows

/-! # Soundness of unification

A substitution that unification finds is settled, binds and mentions only variables of the two types and variables it
has issued itself, respects their constraints, and every valuation that solves it makes the two types equal.
-/

namespace RowInference

namespace Ty

/-- Replacing variables does not take a type out of its class. -/
theorem satisfies_mapVars {type : Ty} {required : Constraint} (replace : TypeVar → Ty)
    (satisfied : type.satisfies required = true) : (type.mapVars replace).satisfies required = true := by
  cases required <;> cases type <;> simp_all [satisfies, mapVars]

/-- Replacing a variable by a type for its constraint keeps what the type may stand for. -/
theorem Meets.mapVars {type : Ty} {constraint : Option Constraint} {replace : TypeVar → Ty}
    (meets : type.Meets constraint)
    (values : ∀ v, type = .var v → (replace v).Meets v.constraint) : (type.mapVars replace).Meets constraint := by
  intro required restricted
  rcases meets required restricted with satisfied | constrained
  · exact .inl (satisfies_mapVars replace satisfied)
  · cases type <;> simp only [isConstrainedBy, Bool.false_eq_true, decide_eq_true_eq] at constrained
    case var v => exact values v rfl required constrained

end Ty

namespace Substitution

/-! ## Substitutions and signatures -/

/-- The substitution binds variables in play, each to a type within the signature for its constraint. -/
structure Respects (sig : Signature) (subst : Substitution) : Prop where
  key : ∀ ⦃id : VarId⦄ ⦃type : Ty⦄, subst[id]? = some type → sig id ≠ none
  type : ∀ ⦃id : VarId⦄ ⦃type : Ty⦄, subst[id]? = some type → type.Within sig
  meets : ∀ ⦃id : VarId⦄ ⦃type : Ty⦄, subst[id]? = some type → ∀ ⦃constraint⦄, sig id = some constraint →
    type.Meets constraint

variable {sig wider : Signature} {subst found : Substitution}

theorem respects_empty : Respects sig {} where
  key := by simp
  type := by simp
  meets := by simp

theorem settled_empty : Settled {} := by
  intro id type bound
  simp at bound

theorem Respects.proper (respects : subst.Respects sig) : subst.Proper :=
  fun _ _ bound => ⟨(respects.type bound).canonical, (respects.type bound).flat⟩

theorem Respects.mono (respects : subst.Respects sig) (sub : sig.Sub wider) : subst.Respects wider where
  key id type bound := by
    obtain ⟨constraint, known⟩ := Option.ne_none_iff_exists'.mp (respects.key bound)
    rw [sub known]
    exact Option.some_ne_none _
  type id type bound := (respects.type bound).mono sub
  meets id type bound constraint known := by
    obtain ⟨own, ownKnown⟩ := Option.ne_none_iff_exists'.mp (respects.key bound)
    obtain rfl : own = constraint := Option.some.inj ((sub ownKnown).symm.trans known)
    exact respects.meets bound ownKnown

theorem Respects.erase (respects : subst.Respects sig) (id : VarId) : Respects sig (subst.erase id) where
  key _ _ bound := respects.key (getElem?_of_erase bound)
  type _ _ bound := respects.type (getElem?_of_erase bound)
  meets _ _ bound := respects.meets (getElem?_of_erase bound)

/-- Substitutions that respect a signature respect it together. -/
theorem Respects.extend (respects : subst.Respects sig) (foundRespects : found.Respects sig) :
    (subst.extend found).Respects sig := by
  have either : ∀ {id : VarId} {type : Ty}, (subst.extend found)[id]? = some type →
      subst[id]? = some type ∨ found[id]? = some type := by
    intro id type bound
    rw [getElem?_extend] at bound
    rcases Option.or_eq_some_iff.mp bound with old | ⟨_, new⟩
    · exact .inl old
    · exact .inr new
  exact {
    key := fun id type bound => (either bound).elim (respects.key ·) (foundRespects.key ·)
    type := fun id type bound => (either bound).elim (respects.type ·) (foundRespects.type ·)
    meets := fun id type bound => (either bound).elim (respects.meets ·) (foundRespects.meets ·) }

/-- What a variable in play resolves to is within the signature and may stand for the variable. -/
theorem Respects.value (respects : subst.Respects sig) {v : TypeVar} (known : sig v.id = some v.constraint) :
    (subst.value v).Within sig ∧ (subst.value v).Meets v.constraint := by
  rw [Substitution.value, apply_var_eq_resolve]
  induction subst using erase_induction generalizing v with
  | step subst ih =>
    cases bound : subst[v.id]? with
    | none =>
      rw [resolve_var_of_none bound]
      exact ⟨Ty.within_var.mpr known, Ty.meets_var rfl⟩
    | some type =>
      rw [resolve_var_of_some bound, resolve_eq_mapVars]
      have values := fun {u : TypeVar} => ih v.id type bound (respects.erase v.id) (v := u)
      have within := respects.type bound
      refine ⟨within.mapVars (fun u known => (values known).1) fun u =>
        ⟨resolve_var_canonical (respects.proper.canonical.erase _) u, resolve_var_flat _ u⟩, ?_⟩
      refine (respects.meets bound known).mapVars ?_
      rintro u rfl
      exact (values (Ty.within_var.mp within)).2

/-- Application stays within the signature. -/
theorem Respects.apply_within (respects : subst.Respects sig) {type : Ty} (within : type.Within sig) :
    (subst.apply type).Within sig := by
  rw [apply_eq_mapVars within.flat]
  exact within.mapVars (fun v known => (respects.value known).1) fun v =>
    ⟨value_canonical respects.proper.canonical v, value_flat subst v⟩

/-- The variables in play that are not bound. -/
noncomputable def unboundIn (subst : Substitution) (sig : Signature) : Signature :=
  sig.restrict fun id => subst[id]? = none

/-- Without cycles only unbound variables are left. -/
theorem Respects.apply_within_unbound (respects : subst.Respects sig) (acyclic : subst.Acyclic) {type : Ty}
    (within : type.Within sig) : (subst.apply type).Within (subst.unboundIn sig) := by
  obtain ⟨canonical, flat, known⟩ := respects.apply_within within
  refine ⟨canonical, flat, fun v inType => ?_⟩
  rw [unboundIn, Signature.restrict_of (unbound_of_mem_apply acyclic inType)]
  exact known v inType

/-- A substitution over unbound and new variables is apart. -/
theorem Respects.apart {issued issued' : Nat} (respects : subst.Respects sig) (below : sig.Issued issued)
    (foundRespects : found.Respects ((subst.unboundIn sig).grow issued issued')) : subst.Apart found := by
  have unbound : ∀ {id : VarId}, (subst.unboundIn sig).grow issued issued' id ≠ none → subst[id]? = none := by
    intro id known
    rcases Signature.of_grow_restrict known with kept | ⟨index, rfl, above, _⟩
    · exact kept
    · cases bound : subst[VarId.generated index]? with
      | none => rfl
      | some type =>
        have := below index (respects.key bound)
        omega
  refine ⟨fun id type bound => unbound (foundRespects.key bound), fun id type bound v inType => unbound ?_⟩
  rw [(foundRespects.type bound).known v inType]
  exact Option.some_ne_none _

/-- Substitutions that respect a signature compose to one that does. -/
theorem Respects.compose (respects : subst.Respects sig) (foundRespects : found.Respects sig) :
    (found.compose subst).Respects sig := by
  have either : ∀ {id : VarId} {type : Ty}, (found.compose subst)[id]? = some type →
      (∃ old, subst[id]? = some old ∧ type = found.apply old) ∨ found[id]? = some type := by
    intro id type bound
    rw [getElem?_compose] at bound
    rcases Option.or_eq_some_iff.mp bound with old | ⟨_, new⟩
    · obtain ⟨previous, inSubst, rfl⟩ := Option.map_eq_some_iff.mp old
      exact .inl ⟨previous, inSubst, rfl⟩
    · exact .inr new
  refine ⟨?_, ?_, ?_⟩
  · intro id type bound
    rcases either bound with ⟨old, inSubst, _⟩ | new
    · exact respects.key inSubst
    · exact foundRespects.key new
  · intro id type bound
    rcases either bound with ⟨old, inSubst, rfl⟩ | new
    · exact foundRespects.apply_within (respects.type inSubst)
    · exact foundRespects.type new
  · intro id type bound constraint known
    rcases either bound with ⟨old, inSubst, rfl⟩ | new
    · have within := respects.type inSubst
      rw [apply_eq_mapVars within.flat]
      refine (respects.meets inSubst known).mapVars ?_
      rintro v rfl
      exact (foundRespects.value (Ty.within_var.mp within)).2
    · exact foundRespects.meets new known

end Substitution

/-! ## Soundness -/

/-- What unification promises of the substitution it finds for two types. -/
structure Unifier (sig : Signature) (issued : Nat) (expected actual : Ty) (found : Substitution)
    (issued' : Nat) : Prop where
  issues : issued ≤ issued'
  respects : found.Respects (sig.grow issued issued')
  settled : found.Settled
  unifies : ∀ ⦃valuation : Valuation⦄, found.SolvedBy valuation →
    expected.read valuation = actual.read valuation

/-- What solving equations on top of a substitution promises of the result. -/
structure Solver (sig : Signature) (issued : Nat) (solved : Substitution) (equations : List Equation)
    (result : Substitution) (issued' : Nat) : Prop where
  issues : issued ≤ issued'
  respects : result.Respects (sig.grow issued issued')
  settled : result.Settled
  solves : ∀ ⦃valuation : Valuation⦄, result.SolvedBy valuation →
    solved.SolvedBy valuation ∧ ∀ equation ∈ equations, equation.SolvedBy valuation

/-- Both sides of the equation are within the signature. -/
def Equation.Within (sig : Signature) (equation : Equation) : Prop :=
  equation.expected.Within sig ∧ equation.actual.Within sig

/-- A binding of a variable in play to a type of its class respects the signature. -/
theorem singleton_respects {sig : Signature} {v : TypeVar} {type : Ty} (known : sig v.id = some v.constraint)
    (within : type.Within sig) (meets : type.Meets v.constraint) :
    (Substitution.singleton v type).Respects sig := by
  have only : ∀ {id : VarId} {other : Ty}, (Substitution.singleton v type)[id]? = some other →
      id = v.id ∧ other = type := by
    intro id other bound
    rw [Substitution.getElem?_singleton] at bound
    split at bound
    · next same => exact ⟨same.symm, (Option.some.inj bound).symm⟩
    · cases bound
  refine ⟨?_, ?_, ?_⟩
  · intro id other bound
    obtain ⟨rfl, rfl⟩ := only bound
    rw [known]
    exact Option.some_ne_none _
  · intro id other bound
    obtain ⟨rfl, rfl⟩ := only bound
    exact within
  · intro id other bound constraint known'
    obtain ⟨rfl, rfl⟩ := only bound
    obtain rfl : v.constraint = constraint := Option.some.inj (known.symm.trans known')
    exact meets

/-- A binding of a variable to a type without it is settled. -/
theorem singleton_settled {v : TypeVar} {type : Ty} (absent : type.occurs v.id = false) :
    (Substitution.singleton v type).Settled := by
  intro id other bound u inType
  rw [Substitution.getElem?_singleton] at bound ⊢
  split at bound
  · cases bound
    rw [if_neg]
    intro same
    have present : type.occurs v.id = true := Ty.occurs_iff.mpr ⟨u, inType, same.symm⟩
    rw [absent] at present
    cases present
  · cases bound

theorem singleton_solvedBy {v : TypeVar} {type : Ty} {valuation : Valuation}
    (solved : (Substitution.singleton v type).SolvedBy valuation) : valuation.value v = type.read valuation :=
  solved (by rw [Substitution.getElem?_singleton, if_pos rfl])

/-- A binding unifies the two types. -/
theorem Bound.unifier {sig : Signature} {issued : Nat} {expected actual : Ty} {found : Substitution}
    (bound : Bound expected actual found) (expectedWithin : expected.Within sig) (actualWithin : actual.Within sig) :
    Unifier sig issued expected actual found issued := by
  cases bound with
  | @same left right sameId =>
    have sameVar : left = right := by
      have leftKnown := Ty.within_var.mp expectedWithin
      have rightKnown := Ty.within_var.mp actualWithin
      rw [sameId, rightKnown] at leftKnown
      cases left
      cases right
      simp_all
    subst sameVar
    exact ⟨Nat.le_refl _, Substitution.respects_empty, Substitution.settled_empty, fun _ _ => rfl⟩
  | left absent meets =>
    refine ⟨Nat.le_refl _, ?_, singleton_settled absent, fun _ => singleton_solvedBy⟩
    rw [Signature.grow_self]
    exact singleton_respects (Ty.within_var.mp expectedWithin) actualWithin meets
  | right _ absent meets =>
    refine ⟨Nat.le_refl _, ?_, singleton_settled absent, fun _ solved => (singleton_solvedBy solved).symm⟩
    rw [Signature.grow_self]
    exact singleton_respects (Ty.within_var.mp actualWithin) expectedWithin meets

theorem components_within {sig : Signature} {expected actual : Ty} {equations : List Equation}
    (split : expected.components actual = some equations) (expectedWithin : expected.Within sig)
    (actualWithin : actual.Within sig) : ∀ equation ∈ equations, equation.Within sig := by
  cases expected <;> cases actual <;> simp only [Ty.components, Option.some.injEq, reduceCtorEq] at split
  all_goals
    subst split
    simp_all [Equation.Within]

/-- Types of the same form are read as one just if their parts are. -/
theorem components_read {expected actual : Ty} {equations : List Equation}
    (split : expected.components actual = some equations) {valuation : Valuation} :
    expected.read valuation = actual.read valuation ↔ ∀ equation ∈ equations, equation.SolvedBy valuation := by
  cases expected <;> cases actual <;> simp only [Ty.components, Option.some.injEq, reduceCtorEq] at split
  all_goals
    subst split
    simp [Equation.SolvedBy, Ty.read, Ty.mapVars]

theorem rowParts_within {sig : Signature} {type : Ty} (record : type.isRecord = true) (within : type.Within sig) :
    type.rowParts.1.Within sig ∧ ∀ tail, type.rowParts.2 = some tail → tail.Within sig := by
  cases type <;> simp only [Ty.isRecord, reduceCtorEq] at record
  case record fields =>
    exact ⟨Ty.within_record.mp within, by simp [Ty.rowParts]⟩
  case extension base fields =>
    obtain ⟨notRecord, baseWithin, fieldsWithin⟩ := Ty.within_extension.mp within
    rw [Ty.rowParts_extension notRecord fieldsWithin.sorted]
    exact ⟨fieldsWithin, fun tail same => Option.some.inj same ▸ baseWithin⟩

theorem fieldEquations_within {sig : Signature} {expected actual : Ty}
    (left : expected.rowParts.1.Within sig) (right : actual.rowParts.1.Within sig) :
    ∀ equation ∈ fieldEquations expected actual, equation.Within sig := by
  intro equation member
  obtain ⟨pair, inCommon, rfl⟩ := List.mem_map.mp member
  obtain ⟨key, inLeft, inRight⟩ := Row.mem_common inCommon
  exact ⟨left.types _ inLeft, right.types.get? inRight⟩

theorem openRow_within {sig : Signature} {v : TypeVar} {fields : Row} (known : sig v.id = some v.constraint)
    (within : fields.Within sig) : ((Ty.var v).openRow fields).Within sig := by
  rw [Ty.openRow]
  split
  · exact Ty.within_var.mpr known
  · exact Ty.within_extension.mpr ⟨rfl, Ty.within_var.mpr known, within⟩

/-- The equations for the tails are within the signature. -/
theorem TailPlan.within {sig : Signature} {shared : TypeVar} {left right : Row} {leftTail rightTail : Option Ty}
    {equations : List Equation} (plan : TailPlan (.var shared) left right leftTail rightTail equations)
    (leftWithin : left.Within sig) (rightWithin : right.Within sig)
    (leftTailWithin : ∀ tail, leftTail = some tail → tail.Within sig)
    (rightTailWithin : ∀ tail, rightTail = some tail → tail.Within sig)
    (sharedKnown : ∀ ⦃leftTail' rightTail'⦄, leftTail = some leftTail' → rightTail = some rightTail' →
      leftTail' ≠ rightTail' → ¬(left.without right = .empty ∧ right.without left = .empty) →
        sig shared.id = some shared.constraint) :
    ∀ equation ∈ equations, equation.Within sig := by
  intro equation member
  cases plan with
  | closed | same => cases member
  | closedRight =>
    obtain rfl := List.mem_singleton.mp member
    exact ⟨leftTailWithin _ rfl, Ty.within_record.mpr (rightWithin.without _)⟩
  | closedLeft =>
    obtain rfl := List.mem_singleton.mp member
    exact ⟨rightTailWithin _ rfl, Ty.within_record.mpr (leftWithin.without _)⟩
  | meet =>
    obtain rfl := List.mem_singleton.mp member
    exact ⟨leftTailWithin _ rfl, rightTailWithin _ rfl⟩
  | shared different extra =>
    have known := sharedKnown rfl rfl different extra
    rcases List.mem_cons.mp member with rfl | member
    · exact ⟨leftTailWithin _ rfl, openRow_within known (rightWithin.without _)⟩
    · obtain rfl := List.mem_singleton.mp member
      exact ⟨rightTailWithin _ rfl, openRow_within known (leftWithin.without _)⟩

theorem le_afterSharedTail (issued : Nat) (expected actual : Ty) :
    issued ≤ afterSharedTail issued expected actual := by
  rw [afterSharedTail]
  split <;> omega

/-- The equations planned for two records are within the signature, with the shared tail if there is one. -/
theorem TailPlan.within_grow {sig : Signature} {issued : Nat} {expected actual : Ty} {equations : List Equation}
    (plan : TailPlan (.var (.generated issued)) expected.rowParts.1 actual.rowParts.1 expected.rowParts.2
      actual.rowParts.2 equations) (expectedRecord : expected.isRecord = true) (actualRecord : actual.isRecord = true)
    (expectedWithin : expected.Within sig) (actualWithin : actual.Within sig) (below : sig.Issued issued) :
    ∀ equation ∈ equations, equation.Within (sig.grow issued (afterSharedTail issued expected actual)) := by
  have sub := Signature.sub_grow below (afterSharedTail issued expected actual)
  obtain ⟨leftWithin, leftTail⟩ := rowParts_within expectedRecord (expectedWithin.mono sub)
  obtain ⟨rightWithin, rightTail⟩ := rowParts_within actualRecord (actualWithin.mono sub)
  refine plan.within leftWithin rightWithin leftTail rightTail ?_
  intro left right isLeft isRight different extra
  have needed := needsSharedTail_iff.mpr ⟨left, right, isLeft, isRight, different, extra⟩
  rw [afterSharedTail, if_pos needed]
  exact Signature.grow_new (Nat.le_refl _) (Nat.lt_succ_self _)

mutual

/-- Unification of types within a signature. -/
theorem Unified.unifier {issued issued' : Nat} {expected actual : Ty} {found : Substitution} {sig : Signature}
    (unified : Unified issued expected actual found issued') (below : sig.Issued issued)
    (expectedWithin : expected.Within sig) (actualWithin : actual.Within sig) :
    Unifier sig issued expected actual found issued' :=
  match unified with
  | .bind bound => bound.unifier expectedWithin actualWithin
  | .atom basic => ⟨Nat.le_refl _, Substitution.respects_empty, Substitution.settled_empty, fun _ _ => rfl⟩
  | .parts split solution =>
    have solver := solution.solver below Substitution.respects_empty Substitution.settled_empty
      (components_within split expectedWithin actualWithin)
    ⟨solver.issues, solver.respects, solver.settled, fun _ solved =>
      (components_read split).mpr (solver.solves solved).2⟩
  | @Unified.rows _ afterCommon _ _ _ _ _ _ expectedRecord actualRecord common planned tails => by
    have leftWithin := (rowParts_within expectedRecord expectedWithin).1
    have rightWithin := (rowParts_within actualRecord actualWithin).1
    have plan := tailEquations_eq_ok_iff.mp planned
    have fields := common.solver below Substitution.respects_empty Substitution.settled_empty
      (fieldEquations_within leftWithin rightWithin)
    have afterFields := below.grow fields.issues
    have shares := le_afterSharedTail afterCommon expected actual
    have toFields := Signature.sub_grow below afterCommon
    have tailsWithin := plan.within_grow expectedRecord actualRecord (expectedWithin.mono toFields)
      (actualWithin.mono toFields) afterFields
    have solver := tails.solver (afterFields.grow shares)
      (fields.respects.mono (Signature.sub_grow afterFields _)) fields.settled tailsWithin
    refine ⟨Nat.le_trans fields.issues (Nat.le_trans shares solver.issues), ?_, solver.settled, ?_⟩
    · have respects := solver.respects
      rwa [Signature.grow_grow _ fields.issues shares,
        Signature.grow_grow _ (Nat.le_trans fields.issues shares) solver.issues] at respects
    · intro valuation solved
      obtain ⟨fieldsSolved, tailsSolved⟩ := solver.solves solved
      rw [← Ty.ofParts_rowParts expectedRecord expectedWithin.canonical expectedWithin.flat,
        ← Ty.ofParts_rowParts actualRecord actualWithin.canonical actualWithin.flat]
      exact plan.read_eq trivial leftWithin.sorted rightWithin.sorted
        (agree_of_fieldEquations (fields.solves fieldsSolved).2) tailsSolved

/-- Solving equations within a signature. -/
theorem Solution.solver {issued issued' : Nat} {solved result : Substitution} {equations : List Equation}
    {sig : Signature} (solution : Solution issued solved equations result issued') (below : sig.Issued issued)
    (respects : solved.Respects sig) (settled : solved.Settled)
    (within : ∀ equation ∈ equations, equation.Within sig) :
    Solver sig issued solved equations result issued' :=
  match solution with
  | .done => ⟨Nat.le_refl _, by rwa [Signature.grow_self], settled, fun _ done => ⟨done, by simp⟩⟩
  | @Solution.step _ afterFirst _ _ found _ equation rest first later => by
    obtain ⟨expectedWithin, actualWithin⟩ := within equation (List.mem_cons_self ..)
    have unifier := first.unifier (below.restrict _)
      (respects.apply_within_unbound settled.acyclic expectedWithin)
      (respects.apply_within_unbound settled.acyclic actualWithin)
    have apart : solved.Apart found := respects.apart below unifier.respects
    have toNext := Signature.sub_grow below afterFirst
    have foundRespects := unifier.respects.mono ((Signature.restrict_sub _ _).grow _ _)
    have solver := later.solver (below.grow unifier.issues) ((respects.mono toNext).compose foundRespects)
      (settled.compose apart unifier.settled)
      (fun equation inRest => (within equation (List.mem_cons_of_mem _ inRest)).imp (·.mono toNext) (·.mono toNext))
    refine ⟨Nat.le_trans unifier.issues solver.issues, ?_, solver.settled, ?_⟩
    · have resultRespects := solver.respects
      rwa [Signature.grow_grow _ unifier.issues solver.issues] at resultRespects
    · intro valuation resultSolved
      obtain ⟨composed, restSolved⟩ := solver.solves resultSolved
      obtain ⟨solvedSolved, foundSolved⟩ :=
        ((Substitution.joined_compose _ _).solvedBy_iff apart respects.proper.canonical
          foundRespects.proper).mp composed
      have firstSolved := unifier.unifies foundSolved
      rw [Substitution.read_apply respects.proper solvedSolved expectedWithin.canonical,
        Substitution.read_apply respects.proper solvedSolved actualWithin.canonical] at firstSolved
      exact ⟨solvedSolved, List.forall_mem_cons.mpr ⟨firstSolved, restSolved⟩⟩

end

end RowInference
