import Mathlib.Data.Finset.Card
import RowInference.Proofs.Substitution.Application

/-! # Adding to a substitution

Unification returns *settled* substitutions, whose bindings mention no bound variable. What it finds is added to what is
known already, in place or by rewriting the old bindings. As application follows chains, it makes no difference which:
where the new substitution knows nothing of the old variables, either way is applying the old one and then the new one.
The solutions of the result are the common solutions of the two parts.
-/

namespace RowInference

open Relation (ReflTransGen TransGen)

namespace Substitution

variable {subst found : Substitution}

theorem getElem?_singleton (v : TypeVar) (type : Ty) (id : VarId) :
    (singleton v type)[id]? = if v.id = id then some type else none := by
  rw [singleton, Std.ExtTreeMap.getElem?_insert]
  simp [Std.LawfulEqCmp.compare_eq_iff_eq]

/-- Of two bindings of a variable the earlier one stays. -/
theorem getElem?_extend (subst found : Substitution) (id : VarId) :
    (subst.extend found)[id]? = subst[id]?.or found[id]? := by
  rw [extend, Std.ExtTreeMap.getElem?_union]

theorem extend_empty (subst : Substitution) : subst.extend {} = subst := by
  apply Std.ExtTreeMap.ext_getElem?
  intro id
  rw [getElem?_extend]
  simp

/-- In a composition the second substitution is applied to the bindings of the first. -/
theorem getElem?_compose (found subst : Substitution) (id : VarId) :
    (found.compose subst)[id]? = (subst[id]?.map found.apply).or found[id]? := by
  rw [compose, getElem?_extend, Std.ExtTreeMap.getElem?_map]

theorem compose_empty (found : Substitution) : found.compose {} = found := by
  apply Std.ExtTreeMap.ext_getElem?
  intro id
  rw [getElem?_compose]
  simp

theorem empty_compose (subst : Substitution) : compose {} subst = subst := by
  apply Std.ExtTreeMap.ext_getElem?
  intro id
  rw [getElem?_compose, funext apply_empty]
  simp

/-- The bound variables. -/
def domain (subst : Substitution) : Finset VarId := subst.keys.toFinset

theorem mem_domain {id : VarId} : id ∈ subst.domain ↔ subst[id]? ≠ none := by
  rw [domain, List.mem_toFinset, Std.ExtTreeMap.mem_keys, Std.ExtTreeMap.mem_iff_isSome_getElem?,
    Option.isSome_iff_ne_none]

theorem domain_singleton (v : TypeVar) (type : Ty) : (singleton v type).domain = {v.id} := by
  ext id
  simp [mem_domain, getElem?_singleton, eq_comm]

theorem domain_compose (found subst : Substitution) : (found.compose subst).domain = subst.domain ∪ found.domain := by
  ext id
  rw [Finset.mem_union, mem_domain, mem_domain, mem_domain, getElem?_compose]
  cases subst[id]? <;> simp

theorem domain_eq_empty : subst.domain = ∅ ↔ subst = {} := by
  constructor
  · intro empty
    apply Std.ExtTreeMap.ext_getElem?
    intro id
    have unbound : id ∉ subst.domain := by simp [empty]
    rw [mem_domain, not_not] at unbound
    rw [unbound]
    simp
  · rintro rfl
    ext id
    simp [mem_domain]

theorem compose_eq_empty : found.compose subst = {} ↔ subst = {} ∧ found = {} := by
  rw [← domain_eq_empty, domain_compose, Finset.union_eq_empty, domain_eq_empty, domain_eq_empty]

/-- No binding mentions a bound variable. -/
def Settled (subst : Substitution) : Prop :=
  ∀ ⦃id : VarId⦄ ⦃type : Ty⦄, subst[id]? = some type → ∀ v ∈ type.occurrences, subst[v.id]? = none

/-- The second substitution binds none of the variables of the first and mentions none of them. -/
structure Apart (subst found : Substitution) : Prop where
  unbound : ∀ ⦃id : VarId⦄ ⦃type : Ty⦄, found[id]? = some type → subst[id]? = none
  unmentioned : ∀ ⦃id : VarId⦄ ⦃type : Ty⦄, found[id]? = some type →
    ∀ v ∈ type.occurrences, subst[v.id]? = none

/-- A composition of substitutions that are apart has as many bindings as both. -/
theorem card_domain_compose (apart : subst.Apart found) :
    (found.compose subst).domain.card = subst.domain.card + found.domain.card := by
  rw [domain_compose, Finset.card_union_of_disjoint]
  rw [Finset.disjoint_left]
  intro id bound foundBound
  obtain ⟨type, isBound⟩ := Option.ne_none_iff_exists'.mp (mem_domain.mp foundBound)
  exact mem_domain.mp bound (apart.unbound isBound)

/-- A settled substitution has no cycles. -/
theorem Settled.acyclic (settled : subst.Settled) : subst.Acyclic := by
  apply acyclic_of_rank fun id => if subst[id]? = none then 0 else 1
  intro id type bound v inType
  simp [settled bound v inType, bound]

/-- In a settled substitution a variable resolves to its binding. -/
theorem Settled.value (settled : subst.Settled) (proper : subst.Proper) (v : TypeVar) :
    subst.value v = (subst[v.id]?).getD (.var v) := by
  cases bound : subst[v.id]? with
  | none => exact value_of_none bound
  | some type =>
    rw [value_of_some settled.acyclic bound]
    exact Ty.mapVars_eq_self (proper bound).2 fun u inType => value_of_none (settled bound u inType)

/-- The type that a variable resolves to is its binding, up to the form of rows. -/
theorem Settled.mem_occurrences_value (settled : subst.Settled) {u v : TypeVar}
    (member : u ∈ (subst.value v).occurrences) :
    u = v ∧ subst[v.id]? = none ∨ ∃ type, subst[v.id]? = some type ∧ u ∈ type.occurrences := by
  cases bound : subst[v.id]? with
  | none =>
    rw [value_of_none bound] at member
    exact .inl ⟨List.mem_singleton.mp member, rfl⟩
  | some type =>
    rw [value_of_some settled.acyclic bound] at member
    obtain ⟨w, inType, inValue⟩ := Ty.mem_occurrences_mapVars member
    rw [value_of_none (settled bound w inType)] at inValue
    obtain rfl := List.mem_singleton.mp inValue
    exact .inr ⟨type, rfl, inType⟩

/-! ## One substitution after another -/

/-- The third substitution has the bindings of the first two; to those of the first the second may have been applied. -/
structure Joined (subst found whole : Substitution) : Prop where
  added : ∀ ⦃id : VarId⦄, subst[id]? = none → whole[id]? = found[id]?
  kept : ∀ ⦃id : VarId⦄ ⦃previous : Ty⦄, subst[id]? = some previous →
    whole[id]? = some previous ∨ whole[id]? = some (found.apply previous)

/-- An extension joins the two substitutions. -/
theorem joined_extend (subst found : Substitution) : subst.Joined found (subst.extend found) where
  added id unbound := by rw [getElem?_extend, unbound, Option.none_or]
  kept id previous bound := by simp [getElem?_extend, bound]

/-- So does a composition. -/
theorem joined_compose (subst found : Substitution) : subst.Joined found (found.compose subst) where
  added id unbound := by simp [getElem?_compose, unbound]
  kept id previous bound := by simp [getElem?_compose, bound]

theorem apply_value_of_none {v : TypeVar} (unbound : subst[v.id]? = none) :
    found.apply (subst.value v) = found.value v := by
  rw [value_of_none unbound, value]

/-- One substitution after the other resolves a bound variable to its binding with the variables in it resolved. -/
theorem apply_value_of_some (canonical : subst.Canonical) (foundCanonical : found.Canonical) (acyclic : subst.Acyclic)
    {v : TypeVar} {type : Ty} (bound : subst[v.id]? = some type) :
    found.apply (subst.value v) = type.mapVars fun u => found.apply (subst.value u) := by
  rw [apply_eq_mapVars (value_flat subst v), value_of_some acyclic bound,
    Ty.mapVars_mapVars (canonical bound) (value_canonical canonical) (value_canonical foundCanonical)]
  exact Ty.mapVars_congr fun u _ => (apply_eq_mapVars (value_flat subst u)).symm

section Sequence

variable {whole : Substitution} (joined : subst.Joined found whole) (apart : subst.Apart found)
    (acyclic : subst.Acyclic)
  (foundAcyclic : found.Acyclic) (canonical : subst.Canonical) (foundCanonical : found.Canonical)

include apart

/-- Chains of the second substitution never come to a variable of the first. -/
theorem Apart.unbound_of_mem_value {v u : TypeVar} (unbound : subst[v.id]? = none)
    (member : u ∈ (found.value v).occurrences) : subst[u.id]? = none := by
  rw [value, apply_var_eq_resolve] at member
  rcases ReflTransGen.cases_tail (reaches_of_mem_resolve member) with same | ⟨_, _, type, bound, w, inType, same⟩
  · rwa [same]
  · rw [← same]
    exact apart.unmentioned bound w inType

theorem Apart.found_unbound {id : VarId} (bound : subst[id]? ≠ none) : found[id]? = none := by
  by_contra foundBound
  obtain ⟨type, isBound⟩ := Option.ne_none_iff_exists'.mp foundBound
  exact bound (apart.unbound isBound)

include joined in
/-- The solutions of joined substitutions are their common solutions. -/
theorem Joined.solvedBy_iff (canonical : subst.Canonical) (foundProper : found.Proper) {valuation : Valuation} :
    whole.SolvedBy valuation ↔ subst.SolvedBy valuation ∧ found.SolvedBy valuation := by
  have unchanged : ∀ ⦃id : VarId⦄ ⦃previous type : Ty⦄, found.SolvedBy valuation → subst[id]? = some previous →
      whole[id]? = some type → type.read valuation = previous.read valuation := by
    intro id previous type solved old bound
    rcases joined.kept old with isPrevious | isApplied
    · rw [Option.some.inj (isPrevious.symm.trans bound)]
    · rw [← Option.some.inj (isApplied.symm.trans bound)]
      exact read_apply foundProper solved (canonical old)
  constructor
  · intro solved
    have foundSolved : found.SolvedBy valuation :=
      fun v type bound => solved ((joined.added (apart.unbound bound)).trans bound)
    refine ⟨fun v previous old => ?_, foundSolved⟩
    rcases joined.kept old with isBound | isBound
    · exact solved isBound
    · rw [solved isBound]
      exact unchanged foundSolved old isBound
  · rintro ⟨substSolved, foundSolved⟩ v type bound
    cases old : subst[v.id]? with
    | none => exact foundSolved ((joined.added old).symm.trans bound)
    | some previous =>
      rw [substSolved old]
      exact (unchanged foundSolved old bound).symm

include foundAcyclic

/-- What the second substitution puts in place of a variable is not changed by either of them again. -/
theorem Apart.mapVars_value (v : TypeVar) :
    (found.value v).mapVars (fun u => found.apply (subst.value u)) = found.apply (subst.value v) := by
  cases here : subst[v.id]? with
  | none =>
    rw [apply_value_of_none here]
    refine Ty.mapVars_eq_self (value_flat found v) fun u inValue => ?_
    rw [apply_value_of_none (apart.unbound_of_mem_value here inValue),
      value_of_none (Substitution.unbound_of_mem_value foundAcyclic inValue)]
  | some binding => rw [value_of_none (apart.found_unbound (by simp [here])), Ty.mapVars]

include joined

/-- Chains from a variable that the first substitution does not bind are chains of the second one. -/
theorem Joined.acc_of_unbound {id : VarId} (unbound : subst[id]? = none) :
    Acc (fun other id => whole.Mentions id other) id := by
  induction id using (acyclic_iff_wellFounded.mp foundAcyclic).induction with
  | _ id ih =>
    refine ⟨id, fun other ⟨type, bound, v, inType, same⟩ => ?_⟩
    rw [joined.added unbound] at bound
    exact ih other ⟨type, bound, v, inType, same⟩ (same ▸ apart.unmentioned bound v inType)

include acyclic

/-- A chain may go from the first substitution to the second, but never back. -/
theorem Acyclic.join : whole.Acyclic := by
  rw [acyclic_iff_wellFounded]
  refine ⟨fun id => ?_⟩
  induction id using (acyclic_iff_wellFounded.mp acyclic).induction with
  | _ id ih =>
    cases old : subst[id]? with
    | none => exact joined.acc_of_unbound apart foundAcyclic old
    | some previous =>
      refine ⟨id, ?_⟩
      rintro _ ⟨type, bound, v, inType, rfl⟩
      rcases joined.kept old with unchanged | applied
      · obtain rfl := Option.some.inj (unchanged.symm.trans bound)
        exact ih v.id ⟨previous, old, v, inType, rfl⟩
      · obtain rfl := Option.some.inj (applied.symm.trans bound)
        obtain ⟨u, inPrevious, inValue⟩ := mem_occurrences_apply inType
        cases here : subst[u.id]? with
        | none => exact joined.acc_of_unbound apart foundAcyclic (apart.unbound_of_mem_value here inValue)
        | some binding =>
          rw [value_of_none (apart.found_unbound (by simp [here]))] at inValue
          obtain rfl := List.mem_singleton.mp inValue
          exact ih v.id ⟨previous, old, v, inPrevious, rfl⟩

include canonical foundCanonical

/-- Whether or not the old bindings have been rewritten, variables resolve as in the first substitution and then in the
second. -/
theorem Joined.value (v : TypeVar) : whole.value v = found.apply (subst.value v) := by
  refine value_unique (acyclic.join joined apart foundAcyclic) (fun u => found.apply (subst.value u))
    (fun v missing => ?_) (fun v type bound => ?_) v
  · cases old : subst[v.id]? with
    | none => rw [apply_value_of_none old, value_of_none (joined.added old ▸ missing)]
    | some previous => rcases joined.kept old with found | found <;> simp [found] at missing
  · cases old : subst[v.id]? with
    | none =>
      rw [joined.added old] at bound
      rw [apply_value_of_none old, value_of_some foundAcyclic bound]
      exact Ty.mapVars_congr fun u inType => (apply_value_of_none (apart.unmentioned bound u inType)).symm
    | some previous =>
      have previously := apply_value_of_some canonical foundCanonical acyclic old
      rcases joined.kept old with unchanged | applied
      · obtain rfl := Option.some.inj (unchanged.symm.trans bound)
        exact previously
      · obtain rfl := Option.some.inj (applied.symm.trans bound)
        rw [previously, mapVars_apply foundCanonical (canonical old)
          fun u => apply_canonical foundCanonical (value_canonical canonical u)]
        exact Ty.mapVars_congr fun u _ => (apart.mapVars_value foundAcyclic u).symm

/-- Substitutions that are joined apply one after the other. -/
theorem Joined.apply {type : Ty} (typeCanonical : type.Canonical) :
    whole.apply type = found.apply (subst.apply type) := by
  rcases eq_or_ne found {} with rfl | nonempty
  · have same : whole = subst := by
      apply Std.ExtTreeMap.ext_getElem?
      intro id
      cases old : subst[id]? with
      | none => simp [joined.added old]
      | some previous => simpa [apply_empty] using joined.kept old
    rw [same, apply_empty]
  · have wholeNonempty : whole ≠ {} := by
      rintro rfl
      refine nonempty (Std.ExtTreeMap.ext_getElem? fun id => ?_)
      cases old : subst[id]? with
      | none => exact (joined.added old).symm
      | some previous => simpa using joined.kept old
    rw [apply_of_ne_empty wholeNonempty, apply_of_ne_empty nonempty,
      mapVars_apply canonical typeCanonical (value_canonical foundCanonical)]
    refine Ty.mapVars_congr fun v _ => ?_
    rw [joined.value apart acyclic foundAcyclic canonical foundCanonical, apply_eq_mapVars (value_flat subst v)]

end Sequence

/-- The composition of settled substitutions that are apart is settled. -/
theorem Settled.compose (settled : subst.Settled) (apart : subst.Apart found) (foundSettled : found.Settled) :
    (found.compose subst).Settled := by
  have unbound : ∀ ⦃id : VarId⦄, subst[id]? = none → found[id]? = none →
      (found.compose subst)[id]? = none := by
    intro id inSubst inFound
    rw [getElem?_compose, inSubst, inFound]
    rfl
  intro id type bound v inType
  rw [getElem?_compose] at bound
  cases old : subst[id]? with
  | none =>
    have bound : found[id]? = some type := by simpa [old] using bound
    exact unbound (apart.unmentioned bound v inType) (foundSettled bound v inType)
  | some previous =>
    obtain rfl : found.apply previous = type := by simpa [old] using bound
    refine unbound ?_ (unbound_of_mem_apply foundSettled.acyclic inType)
    obtain ⟨u, inPrevious, inValue⟩ := mem_occurrences_apply inType
    rcases foundSettled.mem_occurrences_value inValue with ⟨rfl, _⟩ | ⟨replacement, replaced, inReplacement⟩
    · exact settled old v inPrevious
    · exact apart.unmentioned replaced v inReplacement

/-! ## Extending, composing and applying in turn -/

/-- Extending a substitution in place, composing it with what is added and applying the two in turn come to the same,
for acyclic substitutions of which the second knows nothing of the first, and for all types with sorted rows, flat or
not. -/
theorem extension_agrees (canonical : subst.Canonical) (foundCanonical : found.Canonical) (acyclic : subst.Acyclic)
    (foundAcyclic : found.Acyclic) (apart : subst.Apart found) {type : Ty} (typeCanonical : type.Canonical) :
    (subst.extend found).apply type = found.apply (subst.apply type) ∧
      (found.compose subst).apply type = found.apply (subst.apply type) := by
  constructor
  · exact (joined_extend subst found).apply apart acyclic foundAcyclic canonical foundCanonical typeCanonical
  · exact (joined_compose subst found).apply apart acyclic foundAcyclic canonical foundCanonical typeCanonical

/-- A property of all bindings is one of the newest and of the older ones. -/
theorem forall_bind {holds : VarId → Ty → Prop} {v : TypeVar} {type : Ty} (new : holds v.id type)
    (old : ∀ ⦃id : VarId⦄ ⦃binding : Ty⦄, subst[id]? = some binding → holds id binding) :
    ∀ ⦃id : VarId⦄ ⦃binding : Ty⦄, (subst.bind v type)[id]? = some binding → holds id binding := by
  intro id binding bound
  rw [bind, Std.ExtTreeMap.getElem?_insert] at bound
  split at bound
  · next same =>
    cases bound
    rwa [← Std.LawfulEqCmp.eq_of_compare same]
  · exact old bound

theorem forall_singleton {holds : VarId → Ty → Prop} {v : TypeVar} {type : Ty} (only : holds v.id type) :
    ∀ ⦃id : VarId⦄ ⦃binding : Ty⦄, (singleton v type)[id]? = some binding → holds id binding :=
  forall_bind only fun _ _ bound => by simp at bound

/-- A chain to a record over a record: `t0 = [t1]`, `t1 = { { t2 | x : t3 } | y : Int }`. -/
def stacked : Substitution :=
  (singleton (.generated 0) (.list (.var (.generated 1)))).bind (.generated 1)
    (.extension (.extension (.var (.generated 2)) (.field "x" (.var (.generated 3)) .empty)) (.field "y" .int .empty))

/-- A chain to a closed record, with a field that is there already: `t2 = { t4 | x : Bool }`, `t4 = { z : t3 }`,
`t3 = Char`. -/
def closing : Substitution :=
  ((singleton (.generated 3) .char).bind (.generated 4) (.record (.field "z" (.var (.generated 3)) .empty))).bind
    (.generated 2) (.extension (.var (.generated 4)) (.field "x" .bool .empty))

theorem extension_agrees_stacked :
    let type : Ty := .extension (.var (.generated 1)) (.field "y" (.var (.generated 0)) .empty)
    let element : Ty := .record (.field "x" .char (.field "y" .int (.field "z" .char .empty)))
    let result : Ty := .record (.field "x" .char (.field "y" (.list element) (.field "z" .char .empty)))
    (stacked.extend closing).apply type = result ∧ (closing.compose stacked).apply type = result := by
  intro type element result
  have canonical : stacked.Canonical := forall_bind (by simp [Ty.Canonical, Row.Canonical, Row.toList])
    (forall_singleton (by simp [Ty.Canonical]))
  have closingCanonical : closing.Canonical := forall_bind (by simp [Ty.Canonical, Row.Canonical, Row.toList])
    (forall_bind (by simp [Ty.Canonical, Row.Canonical, Row.toList]) (forall_singleton (by simp [Ty.Canonical])))
  have acyclic : stacked.Acyclic := by
    apply acyclic_of_rank fun id => if id = .generated 0 then 2 else if id = .generated 1 then 1 else 0
    exact forall_bind (by decide) (forall_singleton (by decide))
  have closingAcyclic : closing.Acyclic := by
    apply acyclic_of_rank fun id => if id = .generated 2 then 2 else if id = .generated 4 then 1 else 0
    exact forall_bind (by decide) (forall_bind (by decide) (forall_singleton (by decide)))
  have apart : stacked.Apart closing := by
    constructor
    · exact forall_bind (by decide) (forall_bind (by decide) (forall_singleton (by decide)))
    · exact forall_bind (by decide) (forall_bind (by decide) (forall_singleton (by decide)))
  have typeCanonical : type.Canonical := by simp [type, Ty.Canonical, Row.Canonical, Row.toList]
  have inTurn : closing.apply (stacked.apply type) = result := by cbv
  rw [← inTurn]
  exact extension_agrees canonical closingCanonical acyclic closingAcyclic apart typeCanonical

end Substitution

end RowInference
