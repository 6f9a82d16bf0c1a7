import RowInference.Proofs.Types.Admissible
import RowInference.Proofs.Unification.Soundness

/-! # Unification keeps kinds

Unification of kinded types carries the kinding to a kinding of the variables that are left. It commits to nothing that
the two types do not ask for: an admissible valuation that makes them equal can be continued, on the variables issued
on the way, to an admissible valuation that solves what was found.
-/

namespace RowInference

open Substitution (singleton)

/-! ## Advances -/

/-- A substitution carries one kinding to another. Every admissible valuation that solves the equations `posed` has an
admissible continuation that solves the substitution and the equations `ensured`. -/
structure Advance (kinds : Kinding) (posed : List Equation) (issued : Nat) (found : Substitution) (issued' : Nat)
    (kinds' : Kinding) (ensured : List Equation) : Prop where
  issues : issued ≤ issued'
  settled : found.Settled
  respects : found.Respects (kinds.signature.grow issued issued')
  known : kinds'.signature.Sub (kinds.signature.grow issued issued')
  unbound : ∀ ⦃id : VarId⦄, kinds' id ≠ none → found[id]? = none
  carries : kinds.Carries found.value kinds'
  usable : ∀ ⦃id : VarId⦄ ⦃type : Ty⦄, found[id]? = some type → type.Usable kinds'
  within : ∀ equation ∈ ensured, equation.Within (kinds.signature.grow issued issued')
  factors : ∀ ⦃valuation : Valuation⦄, kinds.Admits valuation → (∀ equation ∈ posed, equation.SolvedBy valuation) →
    ∃ later : Valuation, later.AgreesBelow issued valuation ∧ kinds'.Admits later ∧ found.SolvedBy later ∧
      ∀ equation ∈ ensured, equation.SolvedBy later

theorem signature_ne_none_iff {kinds : Kinding} {id : VarId} : kinds.signature id ≠ none ↔ kinds id ≠ none := by
  rw [Kinding.signature, ne_eq, Option.map_eq_none_iff]

/-- Valuations that agree on what has been issued solve the same substitutions. -/
theorem SolvedBy.congr {sig : Signature} {issued : Nat} {subst : Substitution} {later valuation : Valuation}
    (respects : subst.Respects sig) (below : sig.Issued issued) (agrees : later.AgreesBelow issued valuation)
    (solved : subst.SolvedBy valuation) : subst.SolvedBy later := by
  intro v type bound
  rw [(respects.type bound).read_eq below agrees, ← solved bound]
  exact agrees fun index same => below index (same ▸ respects.key bound)

theorem Equation.Within.solvedBy_congr {sig : Signature} {issued : Nat} {equation : Equation}
    {later valuation : Valuation} (within : equation.Within sig) (below : sig.Issued issued)
    (agrees : later.AgreesBelow issued valuation) (solved : equation.SolvedBy valuation) :
    equation.SolvedBy later := by
  rw [Equation.SolvedBy, within.1.read_eq below agrees, within.2.read_eq below agrees]
  exact solved

namespace Advance

variable {kinds kinds₁ kinds₂ : Kinding} {posed posed₁ ensured ensured₁ : List Equation}
  {issued issued₁ issued₂ : Nat} {found found₁ : Substitution}

/-- After an advance all variables with a kind have been issued. -/
theorem below (advance : Advance kinds posed issued found issued₁ kinds₁ ensured)
    (below : kinds.signature.Issued issued) : kinds₁.signature.Issued issued₁ := by
  intro index known
  obtain ⟨constraint, isKnown⟩ := Option.ne_none_iff_exists'.mp known
  refine below.grow advance.issues index ?_
  rw [advance.known isKnown]
  exact Option.some_ne_none _

theorem unbound_grow (first : Advance kinds posed issued found issued₁ kinds₁ ensured)
    (below : kinds.signature.Issued issued) {id : VarId} (isKnown : kinds₁.signature.grow issued₁ issued₂ id ≠ none) :
    found[id]? = none := by
  by_cases old : kinds₁ id = none
  · cases bound : found[id]? with
    | none => rfl
    | some type =>
      have absent : kinds₁.signature id = none := by rw [Kinding.signature, old]; rfl
      cases id with
      | named name => exact absurd absent isKnown
      | generated index =>
        have := below.grow first.issues index (first.respects.key bound)
        rw [Signature.grow, if_neg (by omega)] at isKnown
        exact absurd absent isKnown
  · exact first.unbound old

/-- What is found about the variables that are left says nothing about those that are bound. -/
theorem apart (first : Advance kinds posed issued found issued₁ kinds₁ ensured) (below : kinds.signature.Issued issued)
    (respects : found₁.Respects (kinds₁.signature.grow issued₁ issued₂)) : found.Apart found₁ where
  unbound _ _ bound := first.unbound_grow below (respects.key bound)
  unmentioned _ _ bound v inType := first.unbound_grow below (by
    rw [(respects.type bound).known v inType]
    exact Option.some_ne_none _)

/-- Advances are made one after the other. -/
theorem compose (first : Advance kinds posed issued found issued₁ kinds₁ ensured)
    (second : Advance kinds₁ posed₁ issued₁ found₁ issued₂ kinds₂ ensured₁)
    (below : kinds.signature.Issued issued)
    (leads : ∀ ⦃valuation : Valuation⦄, kinds₁.Admits valuation →
      (∀ equation ∈ ensured, equation.SolvedBy valuation) → found.SolvedBy valuation → ∀ equation ∈ posed₁,
        equation.SolvedBy valuation) :
    Advance kinds posed issued (found₁.compose found) issued₂ kinds₂ (ensured ++ ensured₁) := by
  have belowFirst := below.grow first.issues
  have toSecond : (kinds.signature.grow issued issued₁).Sub (kinds.signature.grow issued issued₂) := by
    rw [← Signature.grow_grow _ first.issues second.issues]
    exact Signature.sub_grow belowFirst _
  have fromSecond : (kinds₁.signature.grow issued₁ issued₂).Sub (kinds.signature.grow issued issued₂) := by
    rw [← Signature.grow_grow _ first.issues second.issues]
    exact first.known.grow _ _
  have unbound : ∀ {id : VarId}, kinds₁.signature.grow issued₁ issued₂ id ≠ none → found[id]? = none :=
    first.unbound_grow below
  have apart := first.apart below second.respects
  have proper := first.respects.proper
  have properSecond := second.respects.proper
  refine ⟨Nat.le_trans first.issues second.issues,
    first.settled.compose apart second.settled,
    (first.respects.mono toSecond).compose (second.respects.mono fromSecond),
    second.known.trans fromSecond, ?_, ?_, ?_, ?_, ?_⟩
  · intro id isKnown
    obtain ⟨kind, isKind⟩ := Option.ne_none_iff_exists'.mp (signature_ne_none_iff.mpr isKnown)
    rw [Substitution.getElem?_compose, second.unbound isKnown, unbound]
    · rfl
    · rw [second.known isKind]
      exact Option.some_ne_none _
  · have values : (found₁.compose found).value = fun v => (found.value v).mapVars found₁.value := by
      funext v
      rw [(Substitution.joined_compose _ _).value apart first.settled.acyclic second.settled.acyclic proper.canonical
        properSecond.canonical, Substitution.apply_eq_mapVars (Substitution.value_flat _ v)]
    rw [values]
    exact first.carries.compose second.carries
  · intro id type bound
    rw [Substitution.getElem?_compose] at bound
    rcases Option.or_eq_some_iff.mp bound with old | ⟨_, new⟩
    · obtain ⟨previous, inFound, rfl⟩ := Option.map_eq_some_iff.mp old
      rw [Substitution.apply_eq_mapVars (proper inFound).2]
      exact second.carries.usable (first.usable inFound)
    · exact second.usable new
  · intro equation member
    rcases List.mem_append.mp member with inFirst | inSecond
    · exact (first.within equation inFirst).imp (·.mono toSecond) (·.mono toSecond)
    · exact (second.within equation inSecond).imp (·.mono fromSecond) (·.mono fromSecond)
  -- The valuation is continued twice, and what it solved after the first step it still solves after the second.
  · intro valuation admits solved
    obtain ⟨middle, agrees, admits₁, solvedFound, solvedEnsured⟩ := first.factors admits solved
    obtain ⟨later, agrees₁, admits₂, solvedFound₁, solvedEnsured₁⟩ :=
      second.factors admits₁ (leads admits₁ solvedEnsured solvedFound)
    refine ⟨later, .trans first.issues agrees agrees₁, admits₂, ?_, ?_⟩
    · exact ((Substitution.joined_compose _ _).solvedBy_iff apart proper.canonical properSecond).mpr
        ⟨SolvedBy.congr first.respects belowFirst agrees₁ solvedFound, solvedFound₁⟩
    · intro equation member
      rcases List.mem_append.mp member with inFirst | inSecond
      · exact (first.within equation inFirst).solvedBy_congr belowFirst agrees₁ (solvedEnsured equation inFirst)
      · exact solvedEnsured₁ equation inSecond

/-- Ask for more, or promise less. -/
theorem weaken {posed' ensured' : List Equation} (advance : Advance kinds posed issued found issued₁ kinds₁ ensured)
    (stronger : ∀ ⦃valuation : Valuation⦄, (∀ equation ∈ posed', equation.SolvedBy valuation) →
      ∀ equation ∈ posed, equation.SolvedBy valuation)
    (fewer : ∀ equation ∈ ensured', equation ∈ ensured) :
    Advance kinds posed' issued found issued₁ kinds₁ ensured' where
  issues := advance.issues
  settled := advance.settled
  respects := advance.respects
  known := advance.known
  unbound := advance.unbound
  carries := advance.carries
  usable := advance.usable
  within equation member := advance.within equation (fewer equation member)
  factors valuation admits solved := by
    obtain ⟨later, agrees, admits', solvedFound, solvedEnsured⟩ := advance.factors admits (stronger solved)
    exact ⟨later, agrees, admits', solvedFound, fun equation member => solvedEnsured equation (fewer equation member)⟩

end Advance

/-! ## Counting

Every variable that unification issues is made up for by two bindings, so that with each binding the number of unbound
variables goes down.
-/

/-- At least two bindings were made for each variable issued. -/
def Paid (issued : Nat) (found : Substitution) (issued' : Nat) : Prop :=
  2 * issued' ≤ 2 * issued + found.domain.card

theorem Paid.refl (issued : Nat) : Paid issued {} issued := Nat.le_add_right _ _

/-- Payments add up. -/
theorem Paid.compose {issued issued₁ issued₂ : Nat} {found solved : Substitution} (first : Paid issued solved issued₁)
    (second : Paid issued₁ found issued₂) (apart : solved.Apart found) :
    Paid issued (found.compose solved) issued₂ := by
  rw [Paid] at first second ⊢
  rw [Substitution.card_domain_compose apart]
  omega

/-- A further binding is a payment. -/
theorem Paid.bind {issued issued₁ : Nat} {solved : Substitution} (paid : Paid issued solved issued₁) (v : TypeVar)
    (type : Ty) : Paid issued ((singleton v type).compose solved) issued₁ := by
  have fewer : solved.domain.card ≤ ((singleton v type).compose solved).domain.card := by
    rw [Substitution.domain_compose]
    exact Finset.card_le_card Finset.subset_union_left
  rw [Paid] at paid ⊢
  omega

/-- Two variables are bound for one that is issued. -/
theorem Paid.share {issued issued₁ : Nat} {solved : Substitution} (paid : Paid issued solved issued₁)
    {left right : TypeVar} (leftUnbound : solved[left.id]? = none) (rightUnbound : solved[right.id]? = none)
    (different : left.id ≠ right.id) (forLeft forRight : Ty) :
    Paid issued ((singleton right forRight).compose ((singleton left forLeft).compose solved)) (issued₁ + 1) := by
  have bound : ((singleton right forRight).compose ((singleton left forLeft).compose solved)).domain
      = insert right.id (insert left.id solved.domain) := by
    rw [Substitution.domain_compose, Substitution.domain_compose, Substitution.domain_singleton,
      Substitution.domain_singleton, Finset.union_assoc, Finset.union_comm, Finset.insert_eq, Finset.insert_eq]
    ac_rfl
  have leftNew : left.id ∉ solved.domain := fun isBound => Substitution.mem_domain.mp isBound leftUnbound
  have rightNew : right.id ∉ insert left.id solved.domain := by
    rw [Finset.mem_insert]
    rintro (same | isBound)
    · exact different same.symm
    · exact Substitution.mem_domain.mp isBound rightUnbound
  rw [Paid] at paid ⊢
  rw [bound, Finset.card_insert_of_notMem rightNew, Finset.card_insert_of_notMem leftNew]
  omega

/-! ## Single steps -/

variable {kinds : Kinding} {issued : Nat}

theorem carries_empty : kinds.Carries (Substitution.value {}) kinds where
  canonical v := by rw [Substitution.value_empty]; trivial
  flat v := by rw [Substitution.value_empty]; trivial
  plain v isPlain := by rwa [Substitution.value_empty]
  tail id fields isTail _ flat := by
    have unchanged : fields.mapVars (Substitution.value {}) = fields := by
      have whole : (Ty.record fields).Flat := flat
      exact Ty.record.inj (Ty.mapVars_eq_self whole fun v _ => Substitution.value_empty v)
    rw [unchanged, Substitution.value_empty]
    exact ⟨rfl, isTail⟩

/-- Nothing is learnt from equations that are ensured by those posed. -/
theorem advance_refl {posed : List Equation}
    (within : ∀ equation ∈ posed, equation.Within kinds.signature) :
    Advance kinds posed issued {} issued kinds posed where
  issues := Nat.le_refl _
  settled := Substitution.settled_empty
  respects := Substitution.respects_empty
  known := by rw [Signature.grow_self]; exact .refl _
  unbound _ _ := by simp
  carries := carries_empty
  usable := by simp
  within := by rwa [Signature.grow_self]
  factors valuation admits solved := ⟨valuation, .refl _ _, admits, by simp [Substitution.SolvedBy], solved⟩

/-- A single binding replaces its variable and nothing else. -/
theorem singleton_value {v : TypeVar} {type : Ty} (absent : type.occurs v.id = false) (canonical : type.Canonical)
    (flat : type.Flat) : (singleton v type).value = v.bind type := by
  have proper : (singleton v type).Proper := by
    intro id other bound
    rw [Substitution.getElem?_singleton] at bound
    split at bound
    · cases bound
      exact ⟨canonical, flat⟩
    · cases bound
  funext u
  rw [(singleton_settled absent).value proper, Substitution.getElem?_singleton, TypeVar.bind]
  by_cases same : v.id = u.id
  · rw [if_pos same, if_pos same.symm]
    rfl
  · rw [if_neg same, if_neg (Ne.symm same)]
    rfl

theorem absent_iff {type : Ty} {id : VarId} : type.occurs id = false ↔ ∀ v ∈ type.occurrences, v.id ≠ id := by
  rw [← Bool.not_eq_true, Ty.occurs_iff]
  simp

/-- Binding a variable that the valuation makes equal to its new value. -/
theorem advance_bind {v : TypeVar} {type : Ty} (known : kinds.signature v.id = some v.constraint)
    (within : type.Within kinds.signature) (absent : type.occurs v.id = false) (meets : type.Meets v.constraint)
    (carries : kinds.Carries (v.bind type) (kinds.bind v type)) (usable : type.Usable (kinds.bind v type)) :
    Advance kinds [⟨.var v, type⟩] issued (singleton v type) issued (kinds.bind v type) [] where
  issues := Nat.le_refl _
  settled := singleton_settled absent
  respects := by
    rw [Signature.grow_self]
    exact singleton_respects known within meets
  known := by
    rw [Signature.grow_self]
    intro id constraint isKnown
    obtain ⟨kind, isKind, rfl⟩ := Option.map_eq_some_iff.mp isKnown
    rw [Kinding.bind] at isKind
    split at isKind
    · cases isKind
    · obtain ⟨old, isOld, rfl⟩ := Option.map_eq_some_iff.mp isKind
      rw [Kinding.signature, isOld, Kind.constraint_mapVars]
      rfl
  unbound id isKnown := by
    rw [Substitution.getElem?_singleton, if_neg]
    rintro rfl
    exact isKnown (if_pos rfl)
  carries := by rwa [singleton_value absent within.canonical within.flat]
  usable id other bound := by
    rw [Substitution.getElem?_singleton] at bound
    split at bound
    · cases bound
      exact usable
    · cases bound
  within := by simp
  factors valuation admits solved := by
    refine ⟨valuation, .refl _ _, admits.bind v type, ?_, by simp⟩
    intro u other bound
    rw [Substitution.getElem?_singleton] at bound
    split at bound
    · next same =>
      cases bound
      have equal : valuation.value v = type.read valuation := solved _ (List.mem_singleton_self _)
      rw [← equal]
      refine (admits.uniform ?_ same).symm
      rw [← signature_ne_none_iff, known]
      exact Option.some_ne_none _
    · cases bound

/-- A binding of kinded types advances. -/
theorem Bound.advance {expected actual : Ty} {found : Substitution} (bound : Bound expected actual found)
    (expectedKinded : expected.Kinded kinds) (actualKinded : actual.Kinded kinds) :
    ∃ kinds', Advance kinds [⟨expected, actual⟩] issued found issued kinds' [] := by
  have plain : ∀ {v : TypeVar} {type : Ty}, (Ty.var v).Kinded kinds → type.Kinded kinds → type.occurs v.id = false →
      type.Meets v.constraint →
      Advance kinds [⟨.var v, type⟩] issued (singleton v type) issued (kinds.bind v type) [] := by
    intro v type isPlain kinded absent meets
    exact advance_bind (Ty.within_var.mp isPlain.within) kinded.within absent meets
      (Kinding.carries_bind_plain isPlain kinded (absent_iff.mp absent)) (.inl (kinded.bind (absent_iff.mp absent)))
  cases bound with
  | same sameId =>
    have nothing : Advance kinds [] issued {} issued kinds [] := advance_refl (by simp)
    exact ⟨kinds, nothing.weaken (by simp) (by simp)⟩
  | left absent meets => exact ⟨_, plain expectedKinded actualKinded absent meets⟩
  | right _ absent meets =>
    refine ⟨_, (plain actualKinded expectedKinded absent meets).weaken ?_ (by simp)⟩
    intro valuation solved
    simp only [List.mem_singleton, forall_eq] at solved ⊢
    exact solved.symm

/-- The next variable has no kind yet. -/
theorem new_of_issued (below : kinds.signature.Issued issued) : kinds (.generated issued) = none := by
  by_contra known
  exact Nat.lt_irrefl _ (below issued (signature_ne_none_iff.mpr known))

/-- A new tail takes a value that is chosen for each valuation. -/
theorem advance_tail {posed ensured : List Equation} {fields : Row} (below : kinds.signature.Issued issued)
    (within : ∀ equation ∈ ensured, equation.Within (kinds.signature.grow issued (issued + 1)))
    (choice : ∀ ⦃valuation : Valuation⦄, kinds.Admits valuation → (∀ equation ∈ posed, equation.SolvedBy valuation) →
      ∃ (common : Ty) (canonical : common.Canonical), common.Flat ∧ (Kind.tail fields).Admits common ∧
        ∀ equation ∈ ensured, equation.SolvedBy (valuation.update (.generated issued) common canonical)) :
    Advance kinds posed issued {} (issued + 1) (kinds.add (.generated issued) (.tail fields)) ensured where
  issues := Nat.le_succ _
  settled := Substitution.settled_empty
  respects := Substitution.respects_empty
  known := by
    intro id constraint isKnown
    obtain ⟨kind, isKind, rfl⟩ := Option.map_eq_some_iff.mp isKnown
    by_cases new : id = .generated issued
    · subst new
      rw [Kinding.add_self] at isKind
      cases isKind
      exact Signature.grow_new (Nat.le_refl _) (Nat.lt_succ_self _)
    · rw [Kinding.add_of_ne _ new] at isKind
      refine Signature.sub_grow below _ ?_
      rw [Kinding.signature, isKind]
      rfl
  unbound _ _ := by simp
  carries := carries_empty.mono (Kinding.sub_add (new_of_issued below) _)
  usable := by simp
  within := within
  factors valuation admits solved := by
    obtain ⟨common, canonical, flat, admitted, solvedEnsured⟩ := choice admits solved
    exact ⟨_, Valuation.update_agreesBelow (Nat.le_refl _), admits.add canonical flat admitted,
      by simp [Substitution.SolvedBy], solvedEnsured⟩

/-- Binding a tail to a type that fits below its fields. -/
theorem advance_bind_tail {id : VarId} {fields : Row} {type : Ty} (isTail : kinds id = some (.tail fields))
    (kinded : fields.Kinded kinds) (absentFields : ∀ v ∈ fields.occurrences, v.id ≠ id)
    (fits : type.FitsTail kinds fields) (absent : type.occurs id = false) :
    Advance kinds [⟨.var ⟨id, none⟩, type⟩] issued (singleton ⟨id, none⟩ type) issued
      (kinds.bind ⟨id, none⟩ type) [] := by
  have known : kinds.signature id = some none := by rw [Kinding.signature, isTail]; rfl
  exact advance_bind known fits.within absent (Ty.meets_none _)
    (Kinding.carries_bind_tail isTail kinded absentFields fits (absent_iff.mp absent))
    (.inr ⟨fields, kinded.canonical, kinded.flat, fits.bind kinded absentFields (absent_iff.mp absent)⟩)

/-- A tail is bound to what it has to equal. -/
theorem Advance.bind_tail {kinds₁ : Kinding} {posed ensured : List Equation} {issued₁ : Nat} {solved : Substitution}
    (sofar : Advance kinds posed issued solved issued₁ kinds₁ ensured) (below : kinds.signature.Issued issued)
    {id : VarId} {fields : Row} {type : Ty} (kinded : (Ty.extension (.var ⟨id, none⟩) fields).Kinded kinds₁)
    (fits : type.FitsTail kinds₁ fields) (absent : type.occurs id = false)
    (leads : ∀ ⦃valuation : Valuation⦄, kinds₁.Admits valuation → (∀ equation ∈ ensured, equation.SolvedBy valuation) →
      solved.SolvedBy valuation → Equation.SolvedBy ⟨.var ⟨id, none⟩, type⟩ valuation) :
    Advance kinds posed issued ((singleton ⟨id, none⟩ type).compose solved) issued₁ (kinds₁.bind ⟨id, none⟩ type)
      ensured := by
  have absentFields := kinded.tail_absent
  obtain ⟨⟨_, base, isTail⟩, fieldsKinded⟩ := kinded
  cases base
  have step : Advance kinds₁ _ issued₁ _ issued₁ _ _ :=
    advance_bind_tail isTail fieldsKinded absentFields fits absent
  refine (sofar.compose step below ?_).weaken (fun _ solved => solved) (by simp)
  intro valuation admits solvedEnsured solvedSofar equation member
  obtain rfl := List.mem_singleton.mp member
  exact leads admits solvedEnsured solvedSofar

end RowInference
