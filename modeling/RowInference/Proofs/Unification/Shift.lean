import RowInference.Proofs.Types.Shift
import RowInference.Proofs.Unification.Derivation

/-! # Unification does not see the numbers of variables

Types that are shifted have a shifted unifier, or fail with shifted types, and the variables that unification issues are
shifted as well.
-/

namespace RowInference

variable {offset : Nat}

/-! ## Substitutions -/

namespace Substitution

def shift (offset : Nat) (subst : Substitution) : Substitution :=
  .ofList (subst.toList.map fun entry => (entry.1.shift offset, entry.2.shift offset))

theorem getElem?_shift (subst : Substitution) (id : VarId) :
    (subst.shift offset)[id]? = (id.unshift offset).bind fun source => subst[source]?.map (Ty.shift offset) := by
  have distinct : (subst.toList.map fun entry => (entry.1.shift offset, entry.2.shift offset)).Pairwise
      fun left right => ¬compare left.1 right.1 = .eq := by
    refine List.pairwise_map.mpr (Std.ExtTreeMap.distinct_keys_toList.imp fun different same => different ?_)
    simpa [Std.LawfulEqCmp.compare_eq_iff_eq] using same
  have absent : (∀ (source : VarId) (type : Ty), subst[source]? = some type → id ≠ source.shift offset) →
      (subst.shift offset)[id]? = none := by
    intro missing
    refine Std.ExtTreeMap.getElem?_ofList_of_contains_eq_false (Bool.eq_false_iff.mpr fun present => ?_)
    rw [List.contains_iff_mem, List.map_map] at present
    obtain ⟨⟨source, type⟩, member, isId⟩ := List.mem_map.mp present
    exact missing source type (Std.ExtTreeMap.mem_toList_iff_getElem?_eq_some.mp member) isId.symm
  cases origin : id.unshift offset with
  | none =>
    refine absent fun source type _ isShift => ?_
    rw [VarId.unshift_eq_some.mpr isShift] at origin
    cases origin
  | some source =>
    obtain rfl := VarId.unshift_eq_some.mp origin
    rw [Option.bind_some]
    cases found : subst[source]? with
    | none =>
      refine absent fun other type bound isShift => ?_
      rw [← VarId.shift_injective isShift, found] at bound
      cases bound
    | some type =>
      refine Std.ExtTreeMap.getElem?_ofList_of_mem Std.ReflCmp.compare_self distinct ?_
      exact List.mem_map.mpr ⟨(source, type), Std.ExtTreeMap.mem_toList_iff_getElem?_eq_some.mpr found, rfl⟩

@[simp] theorem getElem?_shift_shift (subst : Substitution) (id : VarId) :
    (subst.shift offset)[id.shift offset]? = subst[id]?.map (Ty.shift offset) := by
  rw [getElem?_shift, VarId.unshift_eq_some.mpr rfl, Option.bind_some]

@[simp] theorem shift_empty : shift offset {} = {} := by
  apply Std.ExtTreeMap.ext_getElem?
  intro id
  rw [getElem?_shift]
  cases id.unshift offset <;> simp

theorem isEmpty_shift (subst : Substitution) : (subst.shift offset).isEmpty = subst.isEmpty := by
  rw [Bool.eq_iff_iff, Std.ExtTreeMap.isEmpty_iff, Std.ExtTreeMap.isEmpty_iff]
  constructor
  · intro empty
    apply Std.ExtTreeMap.ext_getElem?
    intro id
    have unbound : (subst.shift offset)[id.shift offset]? = none := by rw [empty, Std.ExtTreeMap.getElem?_empty]
    simpa using unbound
  · rintro rfl
    exact shift_empty

theorem shift_singleton (v : TypeVar) (type : Ty) :
    (singleton v type).shift offset = singleton (v.shift offset) (type.shift offset) := by
  apply Std.ExtTreeMap.ext_getElem?
  intro id
  rw [getElem?_shift, getElem?_singleton]
  cases origin : id.unshift offset with
  | none =>
    rw [if_neg fun same => ?_, Option.bind_none]
    rw [VarId.unshift_eq_some.mpr same.symm] at origin
    cases origin
  | some source =>
    rw [VarId.unshift_eq_some.mp origin, Option.bind_some, getElem?_singleton]
    simp only [TypeVar.shift_id, VarId.shift_inj]
    split <;> rfl

theorem shift_erase (subst : Substitution) (id : VarId) :
    shift offset (subst.erase id) = (subst.shift offset).erase (id.shift offset) := by
  apply Std.ExtTreeMap.ext_getElem?
  intro other
  rw [getElem?_shift, Std.ExtTreeMap.getElem?_erase, getElem?_shift]
  cases origin : other.unshift offset with
  | none => simp
  | some source =>
    obtain rfl := VarId.unshift_eq_some.mp origin
    simp only [Option.bind_some, Std.ExtTreeMap.getElem?_erase, Std.LawfulEqCmp.compare_eq_iff_eq, VarId.shift_inj]
    split <;> rfl

theorem shift_extend (subst found : Substitution) :
    (subst.extend found).shift offset = (subst.shift offset).extend (found.shift offset) := by
  apply Std.ExtTreeMap.ext_getElem?
  intro id
  rw [getElem?_shift, getElem?_extend, getElem?_shift, getElem?_shift]
  cases id.unshift offset with
  | none => rfl
  | some source => cases bound : subst[source]? <;> simp [getElem?_extend, bound]

/-- Resolution goes through a shift: the same bindings are followed. -/
theorem shift_resolve (subst : Substitution) (type : Ty) :
    (subst.resolve type).shift offset = (subst.shift offset).resolve (type.shift offset) := by
  induction subst using erase_induction generalizing type with
  | step subst ih =>
    rw [resolve_eq_mapVars, resolve_eq_mapVars (subst.shift offset), Ty.shift_mapVars, Ty.mapVars_shift]
    refine Ty.mapVars_congr fun v _ => ?_
    cases found : subst[v.id]? with
    | none =>
      rw [resolve_var_of_none found, resolve_var_of_none (by simp [found])]
      rfl
    | some replacement =>
      have bound : (subst.shift offset)[(v.shift offset).id]? = some (replacement.shift offset) := by simp [found]
      rw [resolve_var_of_some found, resolve_var_of_some bound, ih v.id replacement found, shift_erase,
        TypeVar.shift_id]

/-- Application goes through a shift. -/
theorem shift_apply (subst : Substitution) (type : Ty) :
    (subst.apply type).shift offset = (subst.shift offset).apply (type.shift offset) := by
  rw [apply, apply, isEmpty_shift]
  split
  · rfl
  · exact shift_resolve subst type

/-- Composition goes through a shift. -/
theorem shift_compose (found subst : Substitution) :
    (found.compose subst).shift offset = (found.shift offset).compose (subst.shift offset) := by
  apply Std.ExtTreeMap.ext_getElem?
  intro id
  rw [getElem?_shift, getElem?_compose, getElem?_shift, getElem?_shift]
  cases id.unshift offset with
  | none => rfl
  | some source => cases bound : subst[source]? <;> simp [getElem?_compose, bound, shift_apply]

end Substitution

/-! ## Equations -/

def UnifyError.shift (offset : Nat) : UnifyError → UnifyError
  | mismatch expected actual => mismatch (expected.shift offset) (actual.shift offset)
  | occurs v type => occurs (v.shift offset) (type.shift offset)
  | unsettled expected actual => unsettled (expected.shift offset) (actual.shift offset)

def Equation.shift (offset : Nat) (equation : Equation) : Equation :=
  ⟨equation.expected.shift offset, equation.actual.shift offset⟩

namespace Ty

theorem rowParts_shift (type : Ty) : (type.shift offset).rowParts
    = (type.rowParts.1.shift offset, type.rowParts.2.map (shift offset)) := by
  induction type using rowParts.induct with
  | case1 fields => rfl
  | case2 base fields ih => rw [shift, rowParts, rowParts, ih, Row.shift_extend]
  | case3 type notRecord notExtension => cases type <;> first | rfl | simp_all

theorem shift_openRow (tail : Ty) (fields : Row) :
    (tail.openRow fields).shift offset = (tail.shift offset).openRow (fields.shift offset) := by
  rw [openRow, openRow, Row.isEmpty_shift]
  split <;> rfl

end Ty

theorem fieldEquations_shift (expected actual : Ty) : fieldEquations (expected.shift offset) (actual.shift offset)
    = (fieldEquations expected actual).map (Equation.shift offset) := by
  rw [fieldEquations, fieldEquations, Ty.rowParts_shift, Ty.rowParts_shift, Row.common_shift,
    List.map_map, List.map_map]
  rfl

/-- Whether a shared tail is needed does not depend on the numbers of variables. -/
theorem needsSharedTail_shift (expected actual : Ty) :
    needsSharedTail (expected.shift offset) (actual.shift offset) = needsSharedTail expected actual := by
  rw [needsSharedTail, needsSharedTail, Ty.rowParts_shift, Ty.rowParts_shift]
  rcases expected.rowParts with ⟨left, _ | leftTail⟩ <;> rcases actual.rowParts with ⟨right, _ | rightTail⟩
  case some.some => simp [← Row.shift_without]
  all_goals rfl

/-- The equations for the tails of shifted records are the shifted ones. -/
theorem tailEquations_shift (shared expected actual : Ty) :
    Except.Matches (fun error error' => error' = error.shift offset)
      (fun equations equations' => equations' = equations.map (Equation.shift offset))
      (tailEquations shared expected actual)
      (tailEquations (shared.shift offset) (expected.shift offset) (actual.shift offset)) := by
  rw [tailEquations, tailEquations, Ty.rowParts_shift, Ty.rowParts_shift]
  rcases expected.rowParts with ⟨left, leftTail⟩
  rcases actual.rowParts with ⟨right, rightTail⟩
  cases leftTail <;> cases rightTail <;>
    simp only [Option.map_none, Option.map_some, ← Row.shift_without, Row.isEmpty_shift, Ty.shift_inj]
  all_goals repeat' split
  all_goals first
    | exact .inl ⟨_, _, rfl, rfl, rfl⟩
    | exact .inr ⟨_, _, rfl, rfl, by simp [Equation.shift, Ty.shift, Ty.shift_openRow]⟩

/-! ## Runs -/

variable (offset) in
/-- A run of unification and one on shifted types. -/
abbrev UnifyM.Shifts : UnifyM Substitution → UnifyM Substitution → Prop :=
  Follows (fun supply supply' => supply' = supply.shift offset) (fun error error' => error' = error.shift offset)
    fun found found' => found' = found.shift offset

theorem UnifyM.Shifts.bind {action other : UnifyM Substitution} {next next' : Substitution → UnifyM Substitution}
    (first : Shifts offset action other) (rest : ∀ found, Shifts offset (next found) (next' (found.shift offset))) :
    Shifts offset (action >>= next) (other >>= next') :=
  Follows.bind first fun found _ isShift => isShift ▸ rest found

theorem unifyVars_shift (expected actual : TypeVar) :
    Except.Matches (fun error error' => error' = error.shift offset) (fun found found' => found' = found.shift offset)
      (unifyVars expected actual) (unifyVars (expected.shift offset) (actual.shift offset)) := by
  rw [unifyVars, unifyVars]
  simp only [TypeVar.shift_id, VarId.shift_inj, TypeVar.shift_constraint]
  repeat' split
  all_goals first
    | exact .inl ⟨_, _, rfl, rfl, rfl⟩
    | exact .inr ⟨_, _, rfl, rfl, by simp [Substitution.shift_singleton, Ty.shift]⟩

theorem bindVar_shift (v : TypeVar) (type : Ty) (equation : Equation) :
    Except.Matches (fun error error' => error' = error.shift offset) (fun found found' => found' = found.shift offset)
      (bindVar v type equation) (bindVar (v.shift offset) (type.shift offset) (equation.shift offset)) := by
  rw [bindVar, bindVar]
  simp only [TypeVar.shift_id, Ty.occurs_shift, TypeVar.shift_constraint, Ty.satisfies_shift]
  repeat' split
  all_goals first
    | exact .inl ⟨_, _, rfl, rfl, rfl⟩
    | exact .inr ⟨_, _, rfl, rfl, by simp [Substitution.shift_singleton]⟩

/-- A shared tail from a later supply is the shifted one. -/
theorem sharedTail_shift (expected actual : Ty) :
    Follows (fun supply supply' : Supply => supply' = supply.shift offset)
      (fun error error' => error' = error.shift offset)
      (fun v v' : TypeVar => v' = v.shift offset) (sharedTail expected actual)
      (sharedTail (expected.shift offset) (actual.shift offset)) := by
  rintro ⟨issued⟩ _ rfl
  rw [Supply.shift, sharedTail_run, sharedTail_run, afterSharedTail, afterSharedTail, needsSharedTail_shift]
  refine .inr ⟨_, _, _, _, rfl, rfl, rfl, ?_⟩
  split
  · rw [Supply.shift, Nat.add_right_comm]
  · rfl

theorem components_shift (expected actual : Ty) : (expected.shift offset).components (actual.shift offset)
    = (expected.components actual).map (List.map (Equation.shift offset)) := by
  cases expected <;> cases actual <;> rfl

theorem notVar_shift {type : Ty} (notVar : ∀ v, type = .var v → False) : ∀ v, type.shift offset = .var v → False := by
  intro v isVar
  cases type <;> simp only [Ty.shift, reduceCtorEq] at isVar
  exact notVar _ rfl

theorem Ty.Clash.shift {expected actual : Ty} (clash : expected.Clash actual) :
    (expected.shift offset).Clash (actual.shift offset) where
  expectedNotVar := notVar_shift clash.expectedNotVar
  actualNotVar := notVar_shift clash.actualNotVar
  notAlike := by rw [components_shift, clash.notAlike]; rfl
  notRecords := by simpa using clash.notRecords
  notSame := by simpa using clash.notSame

/-- Shifted types are unified in the same way. -/
theorem unify_shifts (offset : Nat) :
    (∀ (rounds : Nat) (expected actual : Ty), UnifyM.Shifts offset (unifyWithin rounds expected actual)
      (unifyWithin rounds (expected.shift offset) (actual.shift offset))) ∧
    (∀ (rounds : Nat) (solved : Substitution) (equations : List Equation),
      UnifyM.Shifts offset (solve rounds solved equations)
        (solve rounds (solved.shift offset) (equations.map (Equation.shift offset)))) := by
  apply unifyWithin_induction
  case vars =>
    intro rounds left right
    rw [unifyWithin, Ty.shift, Ty.shift, unifyWithin]
    exact .lift (unifyVars_shift left right)
  case varLeft =>
    intro rounds v type notVar
    rw [unifyWithin_var_left rounds v notVar, Ty.shift, unifyWithin_var_left rounds _ (notVar_shift notVar)]
    exact .lift (bindVar_shift v type _)
  case varRight =>
    intro rounds type v notVar
    rw [unifyWithin_var_right rounds v notVar, Ty.shift, unifyWithin_var_right rounds _ (notVar_shift notVar)]
    exact .lift (bindVar_shift v type _)
  case list =>
    intro rounds element element' ih
    rw [unifyWithin, Ty.shift, Ty.shift, unifyWithin]
    exact ih
  case parts =>
    intro rounds expected actual equations split ih
    have splitShift : (expected.shift offset).components (actual.shift offset)
        = some (equations.map (Equation.shift offset)) := by rw [components_shift, split]; rfl
    rw [unifyWithin_of_components rounds split, unifyWithin_of_components rounds splitShift]
    rwa [Substitution.shift_empty] at ih
  case rows =>
    intro rounds expected actual expectedRecord actualRecord ihFields ihTails
    rw [unifyWithin_of_isRecord rounds expectedRecord actualRecord,
      unifyWithin_of_isRecord rounds (by simpa using expectedRecord) (by simpa using actualRecord),
      fieldEquations_shift]
    rw [Substitution.shift_empty] at ihFields
    refine UnifyM.Shifts.bind ihFields fun fields => ?_
    refine (sharedTail_shift expected actual).bind ?_
    rintro shared _ rfl
    change UnifyM.Shifts offset _ (liftExcept (tailEquations ((Ty.var shared).shift offset) _ _) >>= _)
    rcases tailEquations_shift (.var shared) expected actual with
      ⟨error, error', failed, failed', isShift⟩ | ⟨equations, _, planned, planned', rfl⟩
    · rw [failed, failed']
      exact .throw isShift
    · rw [planned, planned']
      exact ihTails fields shared equations planned
  case atom =>
    intro rounds type basic
    rw [unifyWithin_of_isAtom rounds basic, unifyWithin_of_isAtom rounds (by simpa using basic)]
    exact .pure Substitution.shift_empty.symm
  case clash =>
    intro rounds expected actual clash
    rw [unifyWithin_of_clash rounds clash, unifyWithin_of_clash rounds clash.shift]
    exact .throw rfl
  case nil =>
    intro rounds solved
    rw [solve, List.map_nil, solve]
    exact .pure rfl
  case cons =>
    intro rounds solved equation rest atOnce applied others
    rw [solve.eq_def, List.map_cons, solve.eq_def rounds (solved.shift offset)]
    refine UnifyM.Shifts.bind ?_ fun found => ?_
    · rw [Substitution.isEmpty_shift]
      split
      · exact atOnce
      · cases rounds with
        | zero => exact .throw rfl
        | succ fewer =>
          rw [Equation.shift, ← Substitution.shift_apply, ← Substitution.shift_apply]
          exact applied fewer rfl
    · rw [← Substitution.shift_compose]
      exact others found

/-- Unification of shifted types from a later supply ends alike, with what it finds shifted. -/
theorem unify_shift (offset : Nat) (expected actual : Ty) :
    UnifyM.Shifts offset (unify expected actual) (unify (expected.shift offset) (actual.shift offset)) := by
  rw [unify, unify, unificationRounds, unificationRounds, Ty.size_shift, Ty.size_shift]
  exact (unify_shifts offset).1 _ expected actual

end RowInference
