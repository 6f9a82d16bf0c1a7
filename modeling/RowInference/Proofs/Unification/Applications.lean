import RowInference.Proofs.Types.Extensions
import RowInference.Proofs.Unification.Principal

/-! # Rows during unification

Where a substitution puts a record below the fields of another one, the two are flattened, and a field that both have is
lost from the lower one. Unification applies substitutions all the time: what it has found so far to the next equation,
and what it finds next to the bindings that it has. None of these applications loses a field, if the types are kinded.
The common fields of two records are solved among kinded types. The equations between their tails are not kinded, but
the tails are still untouched then, so that their bindings reach none of the types that are there already.
-/

namespace RowInference

open Substitution (singleton)

/-! ## Applications that lose nothing -/

/-- Under the substitution no base of an open record has one of the fields on top of it. -/
def Substitution.KeepsFields (subst : Substitution) (type : Ty) : Prop :=
  ∀ part ∈ type.extensions, (subst.apply part.1).row.Disjoint part.2

theorem Ty.FitsTail.row_disjoint {kinds : Kinding} {fields : Row} {type : Ty} (fits : type.FitsTail kinds fields) :
    type.row.Disjoint fields := by
  cases type <;> simp only [FitsTail] at fits
  case var v => exact fun _ _ => rfl
  case record inner => exact fits.2
  case extension base inner => exact fits.2.2

/-- A type that followed kinds which have been carried to now. -/
theorem Substitution.keepsFields_of_carries {subst : Substitution} {kinds kinds' : Kinding} {replace : TypeVar → Ty}
    {type : Ty} (carries : kinds.Carries replace kinds') (usable : type.Usable kinds)
    (same : ∀ v ∈ type.occurrences, replace v = subst.value v) : subst.KeepsFields type := by
  have below : ∀ {id : VarId} {fields : Row}, kinds id = some (.tail fields) → fields.Canonical → fields.Flat →
      ⟨id, none⟩ ∈ type.occurrences → (subst.apply (.var ⟨id, none⟩)).row.Disjoint fields := by
    intro id fields isTail canonical flat inType
    have fits := carries.tail isTail canonical flat
    rw [same _ inType] at fits
    exact disjoint_mapVars.mp fits.row_disjoint
  have ofKinded : ∀ part ∈ type.extensions, (Ty.extension part.1 part.2).Kinded kinds →
      (subst.apply part.1).row.Disjoint part.2 := by
    rintro ⟨base, fields⟩ member ⟨⟨id, isBase, isTail⟩, fieldsKinded⟩
    obtain rfl : base = .var ⟨id, none⟩ := isBase
    exact below isTail fieldsKinded.canonical fieldsKinded.flat (Ty.mem_occurrences_of_base member rfl)
  intro part member
  rcases usable with kinded | ⟨fields, canonical, flat, fits⟩
  · exact ofKinded part member (kinded.of_mem_extensions member)
  · cases type <;> simp only [Ty.FitsTail] at fits
    case var v => simp [Ty.extensions] at member
    case record inner =>
      have kinded : (Ty.record inner).Kinded kinds := fits.1
      exact ofKinded part member (kinded.of_mem_extensions member)
    case extension base inner =>
      obtain ⟨⟨id, rfl, isTail⟩, innerKinded, _⟩ := fits
      have kinded : (Ty.record inner).Kinded kinds := innerKinded
      rw [Ty.extensions, List.mem_cons] at member
      rcases member with rfl | inside
      · have whole := below isTail (innerKinded.canonical.extend canonical) (innerKinded.flat.extend flat)
          (List.mem_append_left _ (List.mem_singleton_self _))
        intro key present
        refine whole key ?_
        rw [Row.contains_extend, present, Bool.or_true]
      · exact ofKinded part (by rw [Ty.extensions]; exact List.mem_cons_of_mem _ inside)
          (kinded.of_mem_extensions (by simpa [Ty.extensions] using inside))

/-- All bases of open records in the type are variables. -/
def Ty.VarBased (type : Ty) : Prop := ∀ part ∈ type.extensions, ∃ v, part.1 = .var v

/-- A type whose bases are variables is flat. -/
theorem Ty.VarBased.flat {type : Ty} (bases : type.VarBased) : type.Flat := by
  refine flat_of_extensions fun part member => ?_
  obtain ⟨v, isVar⟩ := bases part member
  rw [isVar]
  rfl

theorem Ty.varBased_var (v : TypeVar) : (Ty.var v).VarBased := by simp [VarBased, extensions]

namespace Substitution

/-- Applying the substitution loses no field, neither in the type itself nor in the bindings that are followed, and in
what comes out no record is left below fields, so that no field is lost in taking it apart either. -/
structure AppliesWhole (subst : Substitution) (type : Ty) : Prop where
  kept : subst.KeepsFields type
  bindings : ∀ ⦃id : VarId⦄ ⦃binding : Ty⦄, subst[id]? = some binding → subst.KeepsFields binding
  flat : (subst.apply type).Flat

variable {subst : Substitution} {type : Ty}

/-- No field can be lost where there is no open record. -/
theorem keepsFields_var (subst : Substitution) (v : TypeVar) : subst.KeepsFields (.var v) := by
  simp [KeepsFields, Ty.extensions]

/-- Where no variable is bound, all bases stay variables. -/
theorem keepsFields_of_unbound (bases : type.VarBased)
    (unbound : ∀ v ∈ type.occurrences, subst[v.id]? = none) : subst.KeepsFields type := by
  intro part member
  obtain ⟨v, isVar⟩ := bases part member
  have stays : subst.apply (.var v) = .var v := value_of_none (unbound v (Ty.mem_occurrences_of_base member isVar))
  rw [isVar, stays]
  exact fun _ _ => rfl

theorem keepsFields_openRow {shared : TypeVar} {fields : Row} (unbound : subst[shared.id]? = none)
    (kept : subst.KeepsFields (.record fields)) : subst.KeepsFields ((Ty.var shared).openRow fields) := by
  rw [Ty.openRow]
  split
  · exact keepsFields_var subst shared
  · have stays : subst.apply (.var shared) = .var shared := value_of_none unbound
    refine List.forall_mem_cons.mpr ⟨?_, kept⟩
    rw [stays]
    exact fun _ _ => rfl

end Substitution

namespace Ty

variable {kinds : Kinding} {type : Ty}

/-- The bases in a kinded type are variables. -/
theorem Kinded.varBased (kinded : type.Kinded kinds) : type.VarBased := by
  intro part member
  obtain ⟨⟨id, isBase, _⟩, _⟩ := kinded.of_mem_extensions member
  exact ⟨_, isBase⟩

theorem Usable.varBased (usable : type.Usable kinds) : type.VarBased := by
  rcases usable with kinded | ⟨fields, _, _, fits⟩
  · exact kinded.varBased
  · cases type <;> simp only [FitsTail] at fits
    case var v => exact varBased_var v
    case record inner =>
      have kinded : (Ty.record inner).Kinded kinds := fits.1
      exact kinded.varBased
    case extension base inner =>
      obtain ⟨⟨id, rfl, _⟩, innerKinded, _⟩ := fits
      have kinded : (Ty.record inner).Kinded kinds := innerKinded
      exact List.forall_mem_cons.mpr ⟨⟨_, rfl⟩, kinded.varBased⟩

end Ty

/-- An advance is applied without loss to the types that were usable before it. -/
theorem Advance.appliesWhole {kinds kinds' : Kinding} {posed ensured : List Equation} {issued issued' : Nat}
    {found : Substitution} {type : Ty} (advance : Advance kinds posed issued found issued' kinds' ensured)
    (usable : type.Usable kinds) : found.AppliesWhole type where
  kept := Substitution.keepsFields_of_carries advance.carries usable fun _ _ => rfl
  bindings _ _ bound := Substitution.keepsFields_of_unbound (advance.usable bound).varBased (advance.settled bound)
  flat := Substitution.apply_flat usable.varBased.flat

/-! ## What unification applies -/

mutual

/-- In a derivation of the unifier, the substitution is applied to the type. -/
inductive UnifyApplies (subst : Substitution) (type : Ty) : Nat → Ty → Ty → Substitution → Nat → Prop where
  | parts {issued issued' : Nat} {expected actual : Ty} {equations : List Equation} {found : Substitution}
      (split : expected.components actual = some equations)
      (solving : SolveApplies subst type issued {} equations found issued') :
      UnifyApplies subst type issued expected actual found issued'
  | fields {issued afterFields issued' : Nat} {expected actual : Ty} {equations : List Equation}
      {fields found : Substitution} (expectedRecord : expected.isRecord = true) (actualRecord : actual.isRecord = true)
      (solving : SolveApplies subst type issued {} (fieldEquations expected actual) fields afterFields)
      (planned : tailEquations (.var (.generated afterFields)) expected actual = .ok equations)
      (tails : Solution (afterSharedTail afterFields expected actual) fields equations found issued') :
      UnifyApplies subst type issued expected actual found issued'
  | tails {issued afterFields issued' : Nat} {expected actual : Ty} {equations : List Equation}
      {fields found : Substitution} (expectedRecord : expected.isRecord = true) (actualRecord : actual.isRecord = true)
      (common : Solution issued {} (fieldEquations expected actual) fields afterFields)
      (planned : tailEquations (.var (.generated afterFields)) expected actual = .ok equations)
      (solving : SolveApplies subst type (afterSharedTail afterFields expected actual) fields equations found issued') :
      UnifyApplies subst type issued expected actual found issued'

/-- In a derivation of the solution, the substitution is applied to the type: to a side of the next equation, within the
unification of the two sides, to a binding found earlier, or later on. -/
inductive SolveApplies (subst : Substitution) (type : Ty) :
    Nat → Substitution → List Equation → Substitution → Nat → Prop
    where
  | side {issued issued' : Nat} {result : Substitution} {equation : Equation} {rest : List Equation}
      (isSide : type = equation.expected ∨ type = equation.actual)
      (solution : Solution issued subst (equation :: rest) result issued') :
      SolveApplies subst type issued subst (equation :: rest) result issued'
  | unifying {issued issued₁ issued' : Nat} {solved found result : Substitution} {equation : Equation}
      {rest : List Equation}
      (first : UnifyApplies subst type issued (solved.apply equation.expected)
        (solved.apply equation.actual) found issued₁)
      (later : Solution issued₁ (found.compose solved) rest result issued') :
      SolveApplies subst type issued solved (equation :: rest) result issued'
  | composing {issued issued₁ issued' : Nat} {solved result : Substitution} {equation : Equation} {rest : List Equation}
      {id : VarId} (bound : solved[id]? = some type)
      (first : Unified issued (solved.apply equation.expected) (solved.apply equation.actual) subst issued₁)
      (later : Solution issued₁ (subst.compose solved) rest result issued') :
      SolveApplies subst type issued solved (equation :: rest) result issued'
  | later {issued issued₁ issued' : Nat} {solved found result : Substitution} {equation : Equation}
      {rest : List Equation}
      (first : Unified issued (solved.apply equation.expected) (solved.apply equation.actual) found issued₁)
      (solving : SolveApplies subst type issued₁ (found.compose solved) rest result issued') :
      SolveApplies subst type issued solved (equation :: rest) result issued'

end

section Derivations

variable {subst : Substitution} {type : Ty}

mutual

theorem UnifyApplies.unified {issued issued' : Nat} {expected actual : Ty} {found : Substitution}
    (applies : UnifyApplies subst type issued expected actual found issued') :
    Unified issued expected actual found issued' :=
  match applies with
  | .parts split solving => .parts split solving.solution
  | .fields expectedRecord actualRecord solving planned tails =>
    .rows expectedRecord actualRecord solving.solution planned tails
  | .tails expectedRecord actualRecord common planned solving =>
    .rows expectedRecord actualRecord common planned solving.solution

/-- What is applied in a derivation of a solution belongs to that solution. -/
theorem SolveApplies.solution {issued issued' : Nat} {solved result : Substitution} {equations : List Equation}
    (applies : SolveApplies subst type issued solved equations result issued') :
    Solution issued solved equations result issued' :=
  match applies with
  | .side _ solution => solution
  | .unifying first later => .step first.unified later
  | .composing _ first later => .step first later
  | .later first solving => .step first solving.solution

end

end Derivations

/-! ## Tails -/

section Tails

variable {kinds kinds₁ : Kinding} {posed ensured : List Equation} {issued issued₁ issued' : Nat}
  {solved found subst : Substitution} {type : Ty}

/-- A variable is unified by binding it, which applies nothing. -/
theorem UnifyApplies.not_var {v : TypeVar} {actual : Ty}
    (applies : UnifyApplies subst type issued (.var v) actual found issued') : False := by
  cases applies with
  | parts split => cases split
  | fields expectedRecord | tails expectedRecord => cases expectedRecord

/-- In the equation for an unbound tail, what was known is applied to the type below it, and the binding of the tail to
what was known. -/
theorem SolveApplies.of_tail {id : VarId} {target : Ty} {rest : List Equation}
    (applies : SolveApplies subst type issued solved (⟨.var ⟨id, none⟩, target⟩ :: rest) found issued')
    (unbound : solved[id]? = none) (different : ∀ constraint, solved.apply target ≠ .var ⟨id, constraint⟩)
    (whole : solved.AppliesWhole target)
    (binds : (solved.apply target).occurs id = false → ∀ ⦃key : VarId⦄ ⦃binding : Ty⦄, solved[key]? = some binding →
      (singleton ⟨id, none⟩ (solved.apply target)).AppliesWhole binding) :
    subst.AppliesWhole type ∨ (solved.apply target).occurs id = false ∧ SolveApplies subst type issued
      ((singleton ⟨id, none⟩ (solved.apply target)).compose solved) rest found issued' := by
  have stays : solved.apply (.var ⟨id, none⟩) = .var ⟨id, none⟩ := Substitution.value_of_none unbound
  cases applies with
  | side isSide =>
    left
    rcases isSide with rfl | rfl
    · exact ⟨Substitution.keepsFields_var solved _, whole.bindings, Substitution.apply_flat (by trivial)⟩
    · exact whole
  | unifying first =>
    rw [stays] at first
    exact first.not_var.elim
  | composing bound first =>
    rw [stays] at first
    obtain ⟨rfl, absent, _⟩ := first.of_var different
    exact .inl (binds absent bound)
  | later first solving =>
    rw [stays] at first
    obtain ⟨rfl, absent, rfl⟩ := first.of_var different
    exact .inr ⟨absent, solving⟩

theorem SolveApplies.not_nil (applies : SolveApplies subst type issued solved [] found issued') : False := by
  cases applies

/-- The binding of a variable is applied without loss to types that do not mention the variable. -/
theorem singleton_appliesWhole {id : VarId} {target binding : Ty} (absent : target.occurs id = false)
    (targetBases : target.VarBased) (bindingBases : binding.VarBased)
    (unmentioned : ∀ v ∈ binding.occurrences, v.id ≠ id) : (singleton ⟨id, none⟩ target).AppliesWhole binding := by
  refine ⟨?_, ?_, Substitution.apply_flat bindingBases.flat⟩
  · refine Substitution.keepsFields_of_unbound bindingBases fun v inBinding => ?_
    rw [Substitution.getElem?_singleton, if_neg (unmentioned v inBinding).symm]
  · intro key bound isBound
    have isTarget := isBound
    rw [Substitution.getElem?_singleton] at isTarget
    split at isTarget
    · cases isTarget
      exact Substitution.keepsFields_of_unbound targetBases (singleton_settled absent isBound)
    · cases isTarget

/-- The only equation for a tail loses no field. -/
theorem SolveApplies.appliesWhole_tail (sofar : Advance kinds posed issued solved issued₁ kinds₁ ensured)
    {issued₂ : Nat} {id : VarId} {target : Ty}
    (applies : SolveApplies subst type issued₂ solved [⟨.var ⟨id, none⟩, target⟩] found issued')
    (untouched : solved.Untouched id) (different : ∀ constraint, solved.apply target ≠ .var ⟨id, constraint⟩)
    (whole : solved.AppliesWhole target)
    (bases : (solved.apply target).VarBased) : subst.AppliesWhole type := by
  refine (applies.of_tail untouched.unbound different whole ?_).resolve_right (·.2.not_nil)
  intro absent key binding bound
  exact singleton_appliesWhole absent bases (sofar.usable bound).varBased (untouched.unmentioned bound)

theorem openRow_varBased {shared : TypeVar} {fields : Row} (kinded : fields.Kinded kinds) :
    ((Ty.var shared).openRow fields).VarBased := by
  have ofFields : (Ty.record fields).Kinded kinds := kinded
  rw [Ty.openRow]
  split
  · exact Ty.varBased_var shared
  · exact List.forall_mem_cons.mpr ⟨⟨_, rfl⟩, ofFields.varBased⟩

/-- Binding an untouched variable leaves the bindings that are there as they are. -/
theorem Substitution.Untouched.of_bound {id key : VarId} {target binding : Ty} (untouched : solved.Untouched id)
    (proper : solved.Proper) (bound : ((singleton ⟨id, none⟩ target).compose solved)[key]? = some binding) :
    solved[key]? = some binding ∨ binding = target := by
  rw [Substitution.getElem?_compose] at bound
  cases old : solved[key]? with
  | none =>
    rw [old, Option.map_none, Option.none_or, Substitution.getElem?_singleton] at bound
    split at bound
    · exact .inr (Option.some.inj bound).symm
    · cases bound
  | some previous =>
    have stays : (singleton ⟨id, none⟩ target).apply previous = previous := by
      refine Substitution.apply_eq_self (proper old).2 fun v inPrevious => ?_
      rw [Substitution.getElem?_singleton, if_neg (untouched.unmentioned old v inPrevious).symm]
    rw [old, Option.map_some, Option.some_or, stays] at bound
    exact .inl bound

/-- Variables other than an untouched one resolve as before when it is bound. -/
theorem Substitution.Untouched.value_bind {id : VarId} {target : Ty} (untouched : solved.Untouched id)
    (settled : solved.Settled) (proper : solved.Proper) (apart : solved.Apart (singleton ⟨id, none⟩ target))
    (absent : target.occurs id = false) (canonical : target.Canonical) {v : TypeVar} (other : v.id ≠ id) :
    ((singleton ⟨id, none⟩ target).compose solved).value v = solved.value v := by
  have singleCanonical : (singleton ⟨id, none⟩ target).Canonical := by
    intro key type bound
    rw [Substitution.getElem?_singleton] at bound
    split at bound
    · cases bound
      exact canonical
    · cases bound
  rw [(Substitution.joined_compose _ _).value apart settled.acyclic (singleton_settled absent).acyclic proper.canonical
    singleCanonical]
  refine Substitution.apply_eq_self (Substitution.value_flat solved v) fun u inValue => ?_
  rw [Substitution.getElem?_singleton, if_neg]
  rcases settled.mem_occurrences_value inValue with ⟨rfl, _⟩ | ⟨type, bound, inType⟩
  · exact other.symm
  · exact (untouched.unmentioned bound u inType).symm

/-- The equations for two tails that get a common tail lose no field. The binding of the first one does not reach what
the second one is bound to. -/
theorem SolveApplies.appliesWhole_shared (sofar : Advance kinds posed issued solved issued₁ kinds₁ ensured)
    {issued₂ : Nat} {shared leftId rightId : VarId} {forLeft forRight : Row}
    (applies : SolveApplies subst type issued₂ solved
      [⟨.var ⟨leftId, none⟩, (Ty.var ⟨shared, none⟩).openRow forLeft⟩,
        ⟨.var ⟨rightId, none⟩, (Ty.var ⟨shared, none⟩).openRow forRight⟩] found issued')
    (forLeftKinded : forLeft.Kinded kinds) (forRightKinded : forRight.Kinded kinds)
    (leftUntouched : solved.Untouched leftId) (rightUntouched : solved.Untouched rightId)
    (sharedUnbound : solved[shared]? = none) (different : leftId ≠ rightId) (leftNe : shared ≠ leftId)
    (rightNe : shared ≠ rightId) (absentForRight : ∀ v ∈ forRight.occurrences, v.id ≠ leftId)
    (absentForLeft : ∀ v ∈ forLeft.occurrences, v.id ≠ rightId) : subst.AppliesWhole type := by
  have settled := sofar.settled
  have proper := sofar.respects.proper
  have ofLeft : (Ty.record forLeft).Kinded kinds := forLeftKinded
  have ofRight : (Ty.record forRight).Kinded kinds := forRightKinded
  have mappedLeft := sofar.carries.kindedRow forLeftKinded
  have mappedRight := sofar.carries.kindedRow forRightKinded
  have appliedLeft : solved.apply ((Ty.var ⟨shared, none⟩).openRow forLeft)
      = (Ty.var ⟨shared, none⟩).openRow (forLeft.mapVars solved.value) := apply_openRow sharedUnbound forLeftKinded.flat
  have wholeLeft := sofar.appliesWhole (.inl ofLeft)
  have bindsLeft : (solved.apply ((Ty.var ⟨shared, none⟩).openRow forLeft)).occurs leftId = false →
      ∀ ⦃key : VarId⦄ ⦃binding : Ty⦄, solved[key]? = some binding →
        (singleton ⟨leftId, none⟩ (solved.apply ((Ty.var ⟨shared, none⟩).openRow forLeft))).AppliesWhole binding := by
    intro absent key binding bound
    rw [appliedLeft] at absent ⊢
    exact singleton_appliesWhole absent (openRow_varBased mappedLeft) (sofar.usable bound).varBased
      (leftUntouched.unmentioned bound)
  -- The first equation, or else the second one, with the first tail bound.
  rcases applies.of_tail leftUntouched.unbound (by rw [appliedLeft]; exact openRow_ne_var leftNe _)
    ⟨Substitution.keepsFields_openRow sharedUnbound wholeLeft.kept, wholeLeft.bindings,
      Substitution.apply_flat (openRow_varBased forLeftKinded).flat⟩ bindsLeft
    with here | ⟨absentLeft, later⟩
  · exact here
  have apart : solved.Apart (singleton ⟨leftId, none⟩ (solved.apply ((Ty.var ⟨shared, none⟩).openRow forLeft))) :=
    apart_singleton settled leftUntouched.unbound
  rw [appliedLeft] at absentLeft later apart
  have appliedRight := apply_openRow_after settled proper leftUntouched sharedUnbound leftNe forLeftKinded.flat
    forLeftKinded.canonical forRightKinded.flat forRightKinded.canonical absentForRight absentLeft
  have canonicalLeft : ((Ty.var ⟨shared, none⟩).openRow (forLeft.mapVars solved.value)).Canonical := by
    rw [Ty.openRow]
    split
    · trivial
    · exact ⟨trivial, mappedLeft.canonical⟩
  -- What was untouched by the solution so far is not touched by the new binding either.
  have stillUnbound : ∀ {id : VarId}, id ≠ leftId → solved[id]? = none → ((singleton ⟨leftId, none⟩
      ((Ty.var ⟨shared, none⟩).openRow (forLeft.mapVars solved.value))).compose solved)[id]? = none := by
    intro id other unbound
    rw [Substitution.getElem?_compose, unbound, Substitution.getElem?_singleton, if_neg other.symm]
    rfl
  have bases : ∀ ⦃key : VarId⦄ ⦃binding : Ty⦄, ((singleton ⟨leftId, none⟩
      ((Ty.var ⟨shared, none⟩).openRow (forLeft.mapVars solved.value))).compose solved)[key]? = some binding →
      binding.VarBased := by
    intro key binding bound
    rcases leftUntouched.of_bound proper bound with old | rfl
    · exact (sofar.usable old).varBased
    · exact openRow_varBased mappedLeft
  refine (later.of_tail (stillUnbound different.symm rightUntouched.unbound) ?_ ⟨?_, ?_,
    Substitution.apply_flat (openRow_varBased forRightKinded).flat⟩ ?_).resolve_right (·.2.not_nil)
  · rw [appliedRight]
    exact openRow_ne_var rightNe _
  · refine Substitution.keepsFields_openRow (stillUnbound leftNe sharedUnbound)
      (Substitution.keepsFields_of_carries sofar.carries (.inl ofRight) fun v inRow => ?_)
    exact (leftUntouched.value_bind settled proper apart absentLeft canonicalLeft (absentForRight v inRow)).symm
  · intro key binding bound
    exact Substitution.keepsFields_of_unbound (bases bound) (settled.compose apart (singleton_settled absentLeft) bound)
  · intro absentRight key binding bound
    rw [appliedRight] at absentRight ⊢
    refine singleton_appliesWhole absentRight (openRow_varBased mappedRight) (bases bound) ?_
    rcases leftUntouched.of_bound proper bound with old | rfl
    · exact rightUntouched.unmentioned old
    · exact absent_openRow rightNe (rightUntouched.absent settled proper absentForLeft)

/-- After the common fields of two records have been solved, no field is lost in solving the tails. -/
theorem SolveApplies.appliesWhole_tails {afterFields : Nat} {expected actual : Ty} {equations : List Equation}
    {fields : Substitution} (below : kinds.signature.Issued issued) (expectedRecord : expected.isRecord = true)
    (actualRecord : actual.isRecord = true) (expectedKinded : expected.Kinded kinds)
    (actualKinded : actual.Kinded kinds)
    (common : Solution issued {} (fieldEquations expected actual) fields afterFields)
    (planned : tailEquations (.var (.generated afterFields)) expected actual = .ok equations)
    (applies : SolveApplies subst type (afterSharedTail afterFields expected actual) fields equations found issued')
    (sofar : Advance kinds posed issued fields afterFields kinds₁ ensured) : subst.AppliesWhole type := by
  have unifier := (Unified.rows expectedRecord actualRecord common planned applies.solution).unifier below
    expectedKinded.within actualKinded.within
  have same := unifier.unifies (Substitution.solvedBy_valuation unifier.respects.proper unifier.settled.acyclic)
  have plan := tailEquations_eq_ok_iff.mp planned
  have untouched := fun {id : VarId} {row : Row} (isTail : kinds id = some (.tail row)) =>
    common.tail_untouched below expectedRecord actualRecord expectedKinded actualKinded isTail
  -- The remaining fields of a closed record are what the tail of the open one is bound to.
  have close : ∀ {id : VarId} {left right : Row}, right.Kinded kinds → fields.Untouched id →
      SolveApplies subst type (afterSharedTail afterFields expected actual) fields
        [⟨.var ⟨id, none⟩, .record (right.without left)⟩] found issued' → subst.AppliesWhole type := by
    intro id left right rightKinded idUntouched closing
    have restKinded : (Ty.record (right.without left)).Kinded kinds := rightKinded.without left
    refine appliesWhole_tail sofar closing idUntouched ?_ (sofar.appliesWhole (.inl restKinded))
      (sofar.apply_kinded restKinded).varBased
    rw [Substitution.apply_eq_mapVars restKinded.within.flat]
    simp [Ty.mapVars]
  rcases expectedKinded.record_cases expectedRecord with ⟨left, rfl⟩ | ⟨leftId, left, rfl⟩ <;>
    rcases actualKinded.record_cases actualRecord with ⟨right, rfl⟩ | ⟨rightId, right, rfl⟩
  · dsimp only [Ty.rowParts] at plan
    cases plan
    exact applies.not_nil.elim
  · simp only [rowParts_tail actualKinded] at plan untouched
    dsimp only [Ty.rowParts] at plan untouched
    cases plan with
    | closedLeft onlyRight =>
      have absent := expectedKinded.absent_of_read_eq actualKinded.tail_kind same.symm (by simp [Kind.use])
      exact close expectedKinded (untouched actualKinded.tail_kind absent actualKinded.tail_absent) applies
  · simp only [rowParts_tail expectedKinded] at plan untouched
    dsimp only [Ty.rowParts] at plan untouched
    cases plan with
    | closedRight onlyLeft =>
      have absent := actualKinded.absent_of_read_eq expectedKinded.tail_kind same (by simp [Kind.use])
      exact close actualKinded (untouched expectedKinded.tail_kind expectedKinded.tail_absent absent) applies
  · simp only [rowParts_tail expectedKinded, rowParts_tail actualKinded] at plan untouched
    -- Tails that differ are both still untouched, since the two records become equal.
    have free : leftId ≠ rightId → (∀ v ∈ right.occurrences, v.id ≠ leftId) ∧ (∀ v ∈ left.occurrences, v.id ≠ rightId) ∧
        fields.Untouched leftId ∧ fields.Untouched rightId := by
      intro different
      obtain ⟨absentRight, absentLeft⟩ := expectedKinded.tails_absent actualKinded different same
      exact ⟨absentRight, absentLeft, untouched expectedKinded.tail_kind expectedKinded.tail_absent absentRight,
        untouched actualKinded.tail_kind absentLeft actualKinded.tail_absent⟩
    cases plan with
    | same onlyLeft onlyRight => exact applies.not_nil.elim
    | meet tailsDiffer onlyLeft onlyRight =>
      have different : leftId ≠ rightId := fun sameId => tailsDiffer (by rw [sameId])
      obtain ⟨_, _, leftUntouched, rightUntouched⟩ := free different
      have applied : fields.apply (.var ⟨rightId, none⟩) = .var ⟨rightId, none⟩ := rightUntouched.value none
      refine appliesWhole_tail sofar applies leftUntouched ?_
        ⟨Substitution.keepsFields_var fields _, (sofar.appliesWhole (.inl expectedKinded)).bindings,
          Substitution.apply_flat (by trivial)⟩ ?_
      · rw [applied]
        rintro constraint ⟨⟩
        exact different rfl
      · rw [applied]
        exact Ty.varBased_var _
    | shared tailsDiffer extra =>
      have different : leftId ≠ rightId := fun sameId => tailsDiffer (by rw [sameId])
      obtain ⟨absentRight, absentLeft, leftUntouched, rightUntouched⟩ := free different
      have sharedNew : ∀ {id : VarId} {row : Row}, kinds id = some (.tail row) → VarId.generated afterFields ≠ id := by
        rintro id row isTail rfl
        rw [new_of_issued (below.mono sofar.issues)] at isTail
        cases isTail
      have sharedUnbound : fields[VarId.generated afterFields]? = none := by
        cases bound : fields[VarId.generated afterFields]? with
        | none => rfl
        | some type => exact absurd (below.grow sofar.issues afterFields (sofar.respects.key bound)) (Nat.lt_irrefl _)
      exact appliesWhole_shared sofar applies (actualKinded.2.without left)
        (expectedKinded.2.without right) leftUntouched
        rightUntouched sharedUnbound different (sharedNew expectedKinded.tail_kind) (sharedNew actualKinded.tail_kind)
        (Row.absent_without right expectedKinded.tail_absent) (Row.absent_without left actualKinded.tail_absent)

end Tails

/-! ## All applications -/

section Applications

variable {subst : Substitution} {type : Ty}

mutual

/-- No application in the unification of kinded types loses a field. -/
theorem UnifyApplies.appliesWhole {issued issued' : Nat} {expected actual : Ty} {found : Substitution} {kinds : Kinding}
    (applies : UnifyApplies subst type issued expected actual found issued') (below : kinds.signature.Issued issued)
    (expectedKinded : expected.Kinded kinds) (actualKinded : actual.Kinded kinds) : subst.AppliesWhole type :=
  match applies with
  | .parts split solving => by
    have kinded := components_kinded split expectedKinded actualKinded
    exact solving.appliesWhole below (advance_refl fun equation member =>
      ⟨(kinded equation member).1.within, (kinded equation member).2.within⟩) kinded fun _ solved => solved
  | .fields expectedRecord actualRecord solving _ _ => by
    refine solving.appliesWhole below (advance_equation expectedKinded actualKinded)
      (fieldEquations_kinded expectedRecord actualRecord expectedKinded actualKinded) ?_
    intro valuation solved
    exact fieldEquations_solved expectedRecord actualRecord expectedKinded.within actualKinded.within
      (solved _ (List.mem_singleton_self _))
  | .tails expectedRecord actualRecord common planned solving => by
    obtain ⟨kinds₁, sofar, _⟩ := common.advance below
      (advance_equation expectedKinded actualKinded) (.refl _)
      (fieldEquations_kinded expectedRecord actualRecord expectedKinded actualKinded) fun valuation solved =>
        fieldEquations_solved expectedRecord actualRecord expectedKinded.within actualKinded.within
          (solved _ (List.mem_singleton_self _))
    exact solving.appliesWhole_tails below expectedRecord actualRecord expectedKinded actualKinded common planned sofar

/-- No application in solving kinded equations that follow from those posed loses a field. -/
theorem SolveApplies.appliesWhole {issued issued₁ issued' : Nat} {solved result : Substitution}
    {posed equations : List Equation} {kinds kinds₁ : Kinding}
    (applies : SolveApplies subst type issued₁ solved equations result issued') (below : kinds.signature.Issued issued)
    (sofar : Advance kinds posed issued solved issued₁ kinds₁ posed)
    (kinded : ∀ equation ∈ equations, equation.expected.Kinded kinds ∧ equation.actual.Kinded kinds)
    (implied : ∀ ⦃valuation : Valuation⦄, (∀ equation ∈ posed, equation.SolvedBy valuation) →
      ∀ equation ∈ equations, equation.SolvedBy valuation) : subst.AppliesWhole type :=
  match applies with
  | .side isSide _ => by
    obtain ⟨expectedKinded, actualKinded⟩ := kinded _ (List.mem_cons_self ..)
    rcases isSide with rfl | rfl
    · exact sofar.appliesWhole (.inl expectedKinded)
    · exact sofar.appliesWhole (.inl actualKinded)
  | .unifying first _ => by
    obtain ⟨expectedKinded, actualKinded⟩ := kinded _ (List.mem_cons_self ..)
    exact first.appliesWhole (sofar.below below) (sofar.apply_kinded expectedKinded) (sofar.apply_kinded actualKinded)
  | .composing bound first _ => by
    obtain ⟨expectedKinded, actualKinded⟩ := kinded _ (List.mem_cons_self ..)
    obtain ⟨_, next, _⟩ := first.advance (sofar.below below) (sofar.apply_kinded expectedKinded)
      (sofar.apply_kinded actualKinded)
    exact next.appliesWhole (sofar.usable bound)
  | .later first solving => by
    obtain ⟨expectedKinded, actualKinded⟩ := kinded _ (List.mem_cons_self ..)
    obtain ⟨_, next, _⟩ := first.advance (sofar.below below) (sofar.apply_kinded expectedKinded)
      (sofar.apply_kinded actualKinded)
    have together := sofar.next below expectedKinded actualKinded next fun _ posedSolved =>
      implied posedSolved _ (List.mem_cons_self ..)
    exact solving.appliesWhole below together (fun other inRest => kinded other (List.mem_cons_of_mem _ inRest))
      fun _ posedSolved other inRest => implied posedSolved other (List.mem_cons_of_mem _ inRest)

end

end Applications

/-- If the two types can be unified, no substitution that unification applies loses a field. -/
def UnifiesWhole (expected actual : Ty) (supply : Supply) : Prop :=
  ∀ ⦃found : Substitution⦄ ⦃after : Supply⦄, unify expected actual supply = (.ok found, after) →
    ∀ ⦃subst : Substitution⦄ ⦃type : Ty⦄,
      UnifyApplies subst type supply.issued expected actual found after.issued → subst.AppliesWhole type

theorem unifiesWhole_of_kinded {expected actual : Ty} {supply : Supply} {kinds : Kinding}
    (below : kinds.signature.Issued supply.issued) (expectedKinded : expected.Kinded kinds)
    (actualKinded : actual.Kinded kinds) : UnifiesWhole expected actual supply :=
  fun _ _ _ _ _ applies => applies.appliesWhole below expectedKinded actualKinded

end RowInference
