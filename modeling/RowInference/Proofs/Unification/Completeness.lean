import Mathlib.Order.Interval.Finset.Nat
import RowInference.Proofs.Unification.Principal

/-! # Unification succeeds

Types that some admissible valuation makes equal are unified. A step made under a non-empty substitution uses up one
round, and such a step has fewer variables left than its types had at first, so that as many rounds as there are
variables are enough.
-/

namespace RowInference

open Substitution (singleton)

variable {kinds : Kinding} {issued : Nat}

/-! ## Variables that are left -/

/-- All variables with a kind are in the set. -/
def Kinding.Over (kinds : Kinding) (live : Finset VarId) : Prop := ∀ ⦃id : VarId⦄, kinds id ≠ none → id ∈ live

/-- With every binding fewer variables are left. -/
theorem Advance.live {posed ensured : List Equation} {issued₁ : Nat} {found : Substitution} {kinds₁ : Kinding}
    {live : Finset VarId} (advance : Advance kinds posed issued found issued₁ kinds₁ ensured)
    (paid : Paid issued found issued₁) (covered : kinds.Over live) :
    ∃ live₁ : Finset VarId, kinds₁.Over live₁ ∧ live₁.card ≤ live.card ∧ (found ≠ {} → live₁.card < live.card) := by
  -- Every variable that was issued on the way is paid for by a binding, so no more are left than there were.
  let all := live ∪ (Finset.Ico issued issued₁).image VarId.generated
  have grown : ∀ {id : VarId}, kinds.signature.grow issued issued₁ id ≠ none → id ∈ all := by
    intro id known
    rw [Finset.mem_union]
    cases id with
    | named name => exact .inl (covered (signature_ne_none_iff.mp known))
    | generated index =>
      by_cases new : issued ≤ index ∧ index < issued₁
      · exact .inr (Finset.mem_image_of_mem _ (Finset.mem_Ico.mpr new))
      · rw [Signature.grow, if_neg new] at known
        exact .inl (covered (signature_ne_none_iff.mp known))
  have bound : found.domain ⊆ all := by
    intro id isBound
    obtain ⟨type, isBound⟩ := Option.ne_none_iff_exists'.mp (Substitution.mem_domain.mp isBound)
    exact grown (advance.respects.key isBound)
  have count : all.card ≤ live.card + (issued₁ - issued) := by
    refine Nat.le_trans (Finset.card_union_le _ _) (Nat.add_le_add_left ?_ _)
    exact Nat.le_trans Finset.card_image_le (by rw [Nat.card_Ico])
  have rest : (all \ found.domain).card = all.card - found.domain.card := Finset.card_sdiff_of_subset bound
  have issues := advance.issues
  rw [Paid] at paid
  refine ⟨all \ found.domain, ?_, by omega, ?_⟩
  · intro id known
    rw [Finset.mem_sdiff]
    refine ⟨?_, fun isBound => Substitution.mem_domain.mp isBound (advance.unbound known)⟩
    obtain ⟨constraint, isKnown⟩ := Option.ne_none_iff_exists'.mp (signature_ne_none_iff.mpr known)
    apply grown
    rw [advance.known isKnown]
    exact Option.some_ne_none _
  · intro nonempty
    have positive : 0 < found.domain.card := by
      rw [Finset.card_pos, Finset.nonempty_iff_ne_empty]
      exact fun empty => nonempty (Substitution.domain_eq_empty.mp empty)
    have : found.domain.card ≤ all.card := Finset.card_le_card bound
    omega

/-! ## Binding variables -/

/-- An unconstrained variable takes every type in which it does not occur. -/
theorem unifyWithin_unconstrained (rounds : Nat) {id : VarId} {type : Ty} (absent : type.occurs id = false)
    (supply : Supply) :
    unifyWithin rounds (.var ⟨id, none⟩) type supply = (.ok (singleton ⟨id, none⟩ type), supply) := by
  cases type
  case var other =>
    have different : id ≠ other.id := by simpa [Ty.occurs, eq_comm] using absent
    rw [unifyWithin, liftExcept_eq_ok, unifyVars, if_neg different]
    exact ⟨rfl, rfl⟩
  all_goals
    rw [unifyWithin, liftExcept_eq_ok, bindVar, absent]
    · exact ⟨rfl, rfl⟩
    · simp

theorem solve_of_empty {rounds : Nat} {equation : Equation} {found : Substitution} {supply after : Supply}
    (first : unifyWithin rounds equation.expected equation.actual supply = (.ok found, after)) (rest : List Equation) :
    solve rounds {} (equation :: rest) supply = solve rounds (found.compose {}) rest after := by
  rw [solve.eq_def]
  dsimp only
  rw [bind_run, if_pos Std.ExtTreeMap.isEmpty_empty, first]

theorem solve_of_nonempty {rounds : Nat} {solved : Substitution} {equation : Equation} {found : Substitution}
    {supply after : Supply} (nonempty : solved ≠ {})
    (first : unifyWithin rounds (solved.apply equation.expected) (solved.apply equation.actual) supply
      = (.ok found, after)) (rest : List Equation) :
    solve (rounds + 1) solved (equation :: rest) supply = solve (rounds + 1) (found.compose solved) rest after := by
  rw [solve.eq_def]
  dsimp only
  rw [bind_run, if_neg (by simpa using nonempty), first]

/-- An equation for an unbound tail is solved by binding it. -/
theorem solve_tail {rounds : Nat} {solved : Substitution} (enough : 0 < rounds) {id : VarId} {type : Ty}
    (unbound : solved[id]? = none) (absent : (solved.apply type).occurs id = false) (rest : List Equation)
    (supply : Supply) :
    solve rounds solved (⟨.var ⟨id, none⟩, type⟩ :: rest) supply
      = solve rounds ((singleton ⟨id, none⟩ (solved.apply type)).compose solved) rest supply := by
  by_cases empty : solved = {}
  · subst empty
    rw [Substitution.apply_empty] at absent ⊢
    exact solve_of_empty (unifyWithin_unconstrained rounds absent supply) rest
  · obtain ⟨fewer, rfl⟩ := Nat.exists_eq_succ_of_ne_zero (Nat.ne_of_gt enough)
    refine solve_of_nonempty empty ?_ rest
    have stays : solved.apply (.var ⟨id, none⟩) = .var ⟨id, none⟩ := Substitution.value_of_none unbound
    rw [stays, unifyWithin_unconstrained fewer absent]

/-! ## Heads -/

section Heads

variable {valuation : Valuation}

theorem Ty.isRecord_read_eq {type : Ty} (notVar : ∀ v, type ≠ .var v) :
    (type.read valuation).isRecord = type.isRecord := by
  cases type
  case var v => exact absurd rfl (notVar v)
  case extension base fields => exact isRecord_read rfl valuation
  all_goals rfl

theorem Ty.satisfies_of_isRecord {type : Ty} (record : type.isRecord = true) (constraint : Constraint) :
    type.satisfies constraint = false ∧ type.isConstrainedBy constraint = false := by
  cases type <;> simp only [isRecord, reduceCtorEq] at record <;> cases constraint <;> exact ⟨rfl, rfl⟩

/-- Whether a type that is no variable belongs to a class does not depend on its variables. -/
theorem Ty.satisfies_of_meets {type : Ty} (notVar : ∀ v, type ≠ .var v) {constraint : Constraint}
    (meets : (type.read valuation).Meets (some constraint)) : type.satisfies constraint = true := by
  rcases meets constraint rfl with satisfied | restricted
  · cases type
    case var v => exact absurd rfl (notVar v)
    case extension base fields =>
      rw [(satisfies_of_isRecord (isRecord_read rfl valuation) constraint).1] at satisfied
      cases satisfied
    all_goals cases constraint <;> exact satisfied
  · cases type
    case var v => exact absurd rfl (notVar v)
    case extension base fields =>
      rw [(satisfies_of_isRecord (isRecord_read rfl valuation) constraint).2] at restricted
      cases restricted
    all_goals cases restricted

/-- No type belongs to two classes. -/
theorem Ty.Meets.unique {type : Ty} {left right : Constraint} (meetsLeft : type.Meets (some left))
    (meetsRight : type.Meets (some right)) : left = right := by
  rcases meetsLeft left rfl with ofLeft | ofLeft <;> rcases meetsRight right rfl with ofRight | ofRight <;>
    cases type <;> cases left <;> cases right <;> simp_all [satisfies, isConstrainedBy]

/-- Types that clash have different values: a value keeps the head of a type that is not a variable. -/
theorem Ty.Clash.read_ne {expected actual : Ty} (clash : expected.Clash actual) (valuation : Valuation) :
    expected.read valuation ≠ actual.read valuation := by
  intro same
  obtain ⟨expectedNotVar, actualNotVar, notAlike, notRecords, notSame⟩ := clash
  have neither : expected.isRecord = false ∧ actual.isRecord = false := by
    have heads := congrArg Ty.isRecord same
    rw [isRecord_read_eq expectedNotVar, isRecord_read_eq actualNotVar] at heads
    rw [heads] at notRecords ⊢
    simpa using notRecords
  cases expected <;> simp only [isRecord, reduceCtorEq, false_and] at neither <;>
    cases actual <;> simp_all [read, mapVars, components, isAtom, isRecord]

/-- Variables with the same value can be unified: the value meets both constraints. -/
theorem unifyVars_ok {left right : TypeVar} (meetsLeft : (valuation.value left).Meets left.constraint)
    (meetsRight : (valuation.value right).Meets right.constraint)
    (same : valuation.value left = valuation.value right) :
    ∃ found, unifyVars left right = .ok found := by
  rw [unifyVars]
  split
  · exact ⟨_, rfl⟩
  · split
    · exact ⟨_, rfl⟩
    · exact ⟨_, rfl⟩
    · next leftConstraint rightConstraint ofLeft ofRight =>
      rw [ofLeft, same] at meetsLeft
      rw [ofRight] at meetsRight
      rw [if_pos (meetsLeft.unique meetsRight)]
      exact ⟨_, rfl⟩

/-- A variable can be bound to a type with the same value in which it does not occur. -/
theorem bindVar_ok {v : TypeVar} {type : Ty} (equation : Equation) (absent : type.occurs v.id = false)
    (notVar : ∀ u, type ≠ .var u) (meets : (valuation.value v).Meets v.constraint)
    (same : valuation.value v = type.read valuation) : bindVar v type equation = .ok (singleton v type) := by
  rw [bindVar, absent, if_neg Bool.false_ne_true]
  split
  · rfl
  · next constraint restricted =>
    rw [restricted, same] at meets
    rw [if_pos (Ty.satisfies_of_meets notVar meets)]

end Heads

/-! ## Plans for tails -/

/-- Nothing is left of a row whose names are all in the other. -/
theorem Row.without_eq_empty {row other : Row} (sorted : row.Sorted)
    (included : ∀ key, row.contains key = true → other.contains key = true) : row.without other = .empty := by
  apply Row.ext_get? (sorted.without other) (by trivial)
  intro key
  rw [Row.get?_without]
  split
  · rfl
  · next missing =>
    rw [Row.get?_eq_none_iff.mpr]
    · rfl
    · exact Bool.eq_false_iff.mpr fun present => missing (included key present)

/-- The fields of a record are among those of a closed record with the same reading. -/
theorem without_closed (type : Ty) {fields : Row} {valuation : Valuation} (record : type.isRecord = true)
    (sorted : type.row.Sorted) (same : type.read valuation = (Ty.record fields).read valuation) :
    type.row.without fields = .empty := by
  refine Row.without_eq_empty sorted fun key present => ?_
  obtain ⟨field, found⟩ := Option.isSome_iff_exists.mp present
  have inReading := Ty.get?_row_read sorted found valuation record
  rw [same] at inReading
  have present' : (fields.mapVars valuation.value).contains key = true := Option.isSome_iff_exists.mpr ⟨_, inReading⟩
  rwa [Row.contains_mapVars] at present'

/-- Records with equal readings have a plan, unless fields differ on top of the same tail. -/
theorem tailPlan_of_read_eq {expected actual : Ty} {valuation : Valuation} (shared : Ty)
    (expectedRecord : expected.isRecord = true) (actualRecord : actual.isRecord = true)
    (expectedCanonical : expected.Canonical) (actualCanonical : actual.Canonical) (expectedFlat : expected.Flat)
    (actualFlat : actual.Flat) (same : expected.read valuation = actual.read valuation)
    (sameTail : ∀ tail left right, expected = .extension tail left → actual = .extension tail right →
      left.without right = .empty ∧ right.without left = .empty) :
    ∃ equations, TailPlan shared expected.rowParts.1 actual.rowParts.1 expected.rowParts.2 actual.rowParts.2
      equations := by
  have leftSorted := Ty.row_sorted expectedCanonical
  have rightSorted := Ty.row_sorted actualCanonical
  cases expected <;> simp only [Ty.isRecord, reduceCtorEq] at expectedRecord <;>
    cases actual <;> simp only [Ty.isRecord, reduceCtorEq] at actualRecord
  case record.record left right =>
    exact ⟨_, .closed (without_closed (.record left) rfl leftSorted same)
      (without_closed (.record right) rfl rightSorted same.symm)⟩
  case record.extension left base right =>
    rw [Ty.rowParts_extension actualFlat.1 actualCanonical.2.sorted]
    exact ⟨_, .closedLeft (without_closed (.extension base right) rfl rightSorted same.symm)⟩
  case extension.record base left right =>
    rw [Ty.rowParts_extension expectedFlat.1 expectedCanonical.2.sorted]
    exact ⟨_, .closedRight (without_closed (.extension base left) rfl leftSorted same)⟩
  case extension.extension leftTail left rightTail right =>
    rw [Ty.rowParts_extension expectedFlat.1 expectedCanonical.2.sorted,
      Ty.rowParts_extension actualFlat.1 actualCanonical.2.sorted]
    by_cases different : leftTail = rightTail
    · subst different
      obtain ⟨noLeft, noRight⟩ := sameTail leftTail left right rfl rfl
      exact ⟨_, .same noLeft noRight⟩
    · by_cases none : left.without right = .empty ∧ right.without left = .empty
      · exact ⟨_, .meet different none.1 none.2⟩
      · exact ⟨_, .shared different none⟩

/-! ## The algorithm -/

/-- The computation ends with a result. -/
def Succeeds (action : UnifyM Substitution) (supply : Supply) : Prop :=
  ∃ found after, action supply = (.ok found, after)

theorem solve_nil (rounds : Nat) (solved : Substitution) (supply : Supply) :
    Succeeds (solve rounds solved []) supply := by
  rw [solve]
  exact ⟨solved, supply, rfl⟩

/-- After the common fields of two records have been solved, so are the tails. -/
theorem solve_tails {rounds afterFields : Nat} {expected actual : Ty} {equations : List Equation}
    {fields : Substitution} {kinds₁ : Kinding} {posed : List Equation} {valuation : Valuation}
    (below : kinds.signature.Issued issued) (enough : ∀ id, kinds id ≠ none → 0 < rounds)
    (expectedRecord : expected.isRecord = true) (actualRecord : actual.isRecord = true)
    (expectedKinded : expected.Kinded kinds) (actualKinded : actual.Kinded kinds)
    (common : Solution issued {} (fieldEquations expected actual) fields afterFields)
    (sofar : Advance kinds posed issued fields afterFields kinds₁ posed)
    (same : expected.read valuation = actual.read valuation)
    (plan : TailPlan (.var (.generated afterFields)) expected.rowParts.1 actual.rowParts.1 expected.rowParts.2
      actual.rowParts.2 equations) (supply : Supply) :
    Succeeds (solve rounds fields equations) supply := by
  have untouched := fun {id : VarId} {row : Row} (isTail : kinds id = some (.tail row)) =>
    common.tail_untouched below expectedRecord actualRecord expectedKinded actualKinded isTail
  have proper := sofar.respects.proper
  have isEnough : ∀ {id : VarId} {row : Row}, kinds id = some (.tail row) → 0 < rounds :=
    fun {id row} isTail => enough id (by rw [isTail]; exact Option.some_ne_none _)
  have absentMapped : ∀ {id : VarId} {row : Row} (other : Row), fields.Untouched id →
      (∀ v ∈ row.occurrences, v.id ≠ id) → ∀ v ∈ ((row.without other).mapVars fields.value).occurrences, v.id ≠ id := by
    intro id row other isUntouched absent
    exact isUntouched.absent sofar.settled proper (Row.absent_without other absent)
  have absentApplied : ∀ {id : VarId} {row other : Row}, fields.Untouched id → row.Kinded kinds →
      (∀ v ∈ row.occurrences, v.id ≠ id) → (fields.apply (.record (row.without other))).occurs id = false := by
    intro id row other isUntouched kinded absent
    have flat : (Ty.record (row.without other)).Flat := (kinded.without other).flat
    rw [Substitution.apply_eq_mapVars flat]
    exact absent_iff.mpr (absentMapped other isUntouched absent)
  -- The tails have not been touched, so each of them is bound right away.
  rcases expectedKinded.record_cases expectedRecord with ⟨left, rfl⟩ | ⟨leftId, left, rfl⟩ <;>
    rcases actualKinded.record_cases actualRecord with ⟨right, rfl⟩ | ⟨rightId, right, rfl⟩
  · dsimp only [Ty.rowParts] at plan
    cases plan
    exact solve_nil _ _ _
  · simp only [rowParts_tail actualKinded] at plan untouched
    dsimp only [Ty.rowParts] at plan untouched
    cases plan with
    | closedLeft onlyRight =>
      have absent := expectedKinded.absent_of_read_eq actualKinded.tail_kind same.symm (by simp [Kind.use])
      have isUntouched := untouched actualKinded.tail_kind absent actualKinded.tail_absent
      rw [Succeeds, solve_tail (isEnough actualKinded.tail_kind) isUntouched.unbound
        (absentApplied isUntouched expectedKinded absent)]
      exact solve_nil _ _ _
  · simp only [rowParts_tail expectedKinded] at plan untouched
    dsimp only [Ty.rowParts] at plan untouched
    cases plan with
    | closedRight onlyLeft =>
      have absent := actualKinded.absent_of_read_eq expectedKinded.tail_kind same (by simp [Kind.use])
      have isUntouched := untouched expectedKinded.tail_kind expectedKinded.tail_absent absent
      rw [Succeeds, solve_tail (isEnough expectedKinded.tail_kind) isUntouched.unbound
        (absentApplied isUntouched actualKinded absent)]
      exact solve_nil _ _ _
  · simp only [rowParts_tail expectedKinded, rowParts_tail actualKinded] at plan untouched
    cases plan with
    | same onlyLeft onlyRight => exact solve_nil _ _ _
    | meet tailsDiffer onlyLeft onlyRight =>
      have different : leftId ≠ rightId := fun sameId => tailsDiffer (by rw [sameId])
      obtain ⟨absentRight, absentLeft⟩ := expectedKinded.tails_absent actualKinded different same
      have leftUntouched := untouched expectedKinded.tail_kind expectedKinded.tail_absent absentRight
      have rightUntouched := untouched actualKinded.tail_kind absentLeft actualKinded.tail_absent
      have stays : fields.apply (.var ⟨rightId, none⟩) = .var ⟨rightId, none⟩ := rightUntouched.value none
      rw [Succeeds, solve_tail (isEnough expectedKinded.tail_kind) leftUntouched.unbound]
      · exact solve_nil _ _ _
      · rw [stays]
        simpa [Ty.occurs] using different.symm
    | shared tailsDiffer extra =>
      have different : leftId ≠ rightId := fun sameId => tailsDiffer (by rw [sameId])
      obtain ⟨absentRight, absentLeft⟩ := expectedKinded.tails_absent actualKinded different same
      have leftUntouched := untouched expectedKinded.tail_kind expectedKinded.tail_absent absentRight
      have rightUntouched := untouched actualKinded.tail_kind absentLeft actualKinded.tail_absent
      have onlyRight : (right.without left).Kinded kinds := actualKinded.2.without left
      have onlyLeft : (left.without right).Kinded kinds := expectedKinded.2.without right
      -- The shared tail is newer than everything that the fields have bound or mention.
      have sharedUnbound : fields[VarId.generated afterFields]? = none := by
        cases bound : fields[VarId.generated afterFields]? with
        | none => rfl
        | some type => exact absurd (below.grow sofar.issues _ (sofar.respects.key bound)) (Nat.lt_irrefl _)
      have sharedNe : ∀ {id : VarId} {row : Row}, kinds id = some (.tail row) → VarId.generated afterFields ≠ id := by
        rintro id row isTail rfl
        have old := below afterFields (by rw [signature_ne_none_iff, isTail]; exact Option.some_ne_none _)
        have := sofar.issues
        omega
      have leftNe := sharedNe expectedKinded.tail_kind
      have rightNe := sharedNe actualKinded.tail_kind
      have forLeft : fields.apply ((Ty.var (.generated afterFields)).openRow (right.without left))
          = (Ty.var (.generated afterFields)).openRow ((right.without left).mapVars fields.value) :=
        apply_openRow sharedUnbound onlyRight.flat
      have absentForLeft : (Ty.openRow (.var (.generated afterFields))
          ((right.without left).mapVars fields.value)).occurs leftId = false :=
        absent_iff.mpr (absent_openRow leftNe (absentMapped left leftUntouched absentRight))
      rw [Succeeds, solve_tail (isEnough expectedKinded.tail_kind) leftUntouched.unbound (forLeft ▸ absentForLeft),
        forLeft, solve_tail (isEnough actualKinded.tail_kind)]
      · exact solve_nil _ _ _
      · rw [Substitution.getElem?_compose, rightUntouched.unbound, Substitution.getElem?_singleton, if_neg different]
        rfl
      · have forRight := apply_openRow_after sofar.settled proper leftUntouched sharedUnbound leftNe onlyRight.flat
          onlyRight.canonical onlyLeft.flat onlyLeft.canonical
          (Row.absent_without right expectedKinded.tail_absent) absentForLeft
        rw [show TypeVar.generated afterFields = ⟨.generated afterFields, none⟩ from rfl, forRight]
        exact absent_iff.mpr (absent_openRow rightNe (absentMapped right rightUntouched absentLeft))

/-- Unification within these rounds succeeds on types that an admissible valuation makes equal, given a round for
each variable. -/
def UnifiesWithin (rounds : Nat) (expected actual : Ty) : Prop :=
  ∀ ⦃kinds : Kinding⦄ ⦃live : Finset VarId⦄ ⦃supply : Supply⦄ ⦃valuation : Valuation⦄,
    kinds.signature.Issued supply.issued → kinds.Over live → live.card ≤ rounds →
    expected.Kinded kinds → actual.Kinded kinds → kinds.Admits valuation →
    expected.read valuation = actual.read valuation → Succeeds (unifyWithin rounds expected actual) supply

/-- Solving these equations within these rounds, on top of what was found for the equations posed, succeeds if they are
implied and an admissible valuation solves them. -/
def SolvesWithin (rounds : Nat) (solved : Substitution) (equations : List Equation) : Prop :=
  ∀ ⦃kinds kinds₁ : Kinding⦄ ⦃posed : List Equation⦄ ⦃live : Finset VarId⦄ ⦃issued : Nat⦄ ⦃supply : Supply⦄
    ⦃valuation : Valuation⦄, kinds.signature.Issued issued → kinds.Over live → live.card ≤ rounds →
    Advance kinds posed issued solved supply.issued kinds₁ posed → Paid issued solved supply.issued →
    (∀ equation ∈ equations, equation.expected.Kinded kinds ∧ equation.actual.Kinded kinds) →
    (∀ ⦃valuation : Valuation⦄, (∀ equation ∈ posed, equation.SolvedBy valuation) →
      ∀ equation ∈ equations, equation.SolvedBy valuation) →
    kinds.Admits valuation → (∀ equation ∈ posed, equation.SolvedBy valuation) →
    Succeeds (solve rounds solved equations) supply

/-- Types of the same form are unified if the equations between their parts are solved. -/
theorem SolvesWithin.parts {rounds : Nat} {expected actual : Ty} {equations : List Equation}
    (solves : SolvesWithin rounds {} equations) (split : expected.components actual = some equations) :
    UnifiesWithin rounds expected actual := by
  intro kinds live supply valuation below covered enough expectedKinded actualKinded admits same
  have kinded := components_kinded split expectedKinded actualKinded
  have start : Advance kinds equations supply.issued {} supply.issued kinds equations :=
    advance_refl fun equation member => ⟨(kinded equation member).1.within, (kinded equation member).2.within⟩
  rw [unifyWithin_of_components rounds split]
  exact solves below covered enough start (.refl _) kinded (fun _ solved => solved) admits
    ((components_read split).mp same)

/-- Records are unified if the equations between their common fields are solved. -/
theorem SolvesWithin.rows {rounds : Nat} {expected actual : Ty} (expectedRecord : expected.isRecord = true)
    (actualRecord : actual.isRecord = true) (solves : SolvesWithin rounds {} (fieldEquations expected actual)) :
    UnifiesWithin rounds expected actual := by
  intro kinds live supply valuation below covered enough expectedKinded actualKinded admits same
  have fieldsKinded := fieldEquations_kinded expectedRecord actualRecord expectedKinded actualKinded
  have fieldsSolved := fieldEquations_solved expectedRecord actualRecord expectedKinded.within actualKinded.within same
  have start : Advance kinds (fieldEquations expected actual) supply.issued {} supply.issued kinds
      (fieldEquations expected actual) := advance_refl fun equation member =>
    ⟨(fieldsKinded equation member).1.within, (fieldsKinded equation member).2.within⟩
  obtain ⟨fields, ⟨afterFields⟩, ranFields⟩ := solves below covered enough start (.refl _) fieldsKinded
    (fun _ solved => solved) admits fieldsSolved
  have common : Solution supply.issued {} (fieldEquations expected actual) fields afterFields :=
    unified_of_run.2 rounds {} _ supply.issued fields ⟨afterFields⟩ ranFields
  obtain ⟨kinds₁, sofar, _⟩ := common.advance below start (.refl _) fieldsKinded fun _ solved => solved
  have sameTail : ∀ tail left right, expected = .extension tail left → actual = .extension tail right →
      left.without right = .empty ∧ right.without left = .empty := by
    rintro tail left right rfl rfl
    obtain ⟨⟨leftId, isLeft, leftKind⟩, leftFields⟩ := expectedKinded
    obtain ⟨⟨rightId, isRight, rightKind⟩, _⟩ := actualKinded
    obtain rfl : leftId = rightId := by simpa [isLeft] using isRight
    rw [leftKind] at rightKind
    cases rightKind
    have nothing := Row.without_eq_empty leftFields.sorted fun key present => present
    exact ⟨nothing, nothing⟩
  obtain ⟨equations, plan⟩ := tailPlan_of_read_eq (.var (.generated afterFields)) expectedRecord actualRecord
    expectedKinded.within.canonical actualKinded.within.canonical expectedKinded.within.flat actualKinded.within.flat
    same sameTail
  have someRound : ∀ id, kinds id ≠ none → 0 < rounds := fun id known =>
    Nat.lt_of_lt_of_le (Finset.card_pos.mpr ⟨id, covered known⟩) enough
  obtain ⟨found, after, ranTails⟩ := solve_tails below someRound expectedRecord actualRecord expectedKinded
    actualKinded common sofar same plan ⟨afterSharedTail afterFields expected actual⟩
  refine ⟨found, after, ?_⟩
  rw [unifyWithin_of_isRecord rounds expectedRecord actualRecord]
  exact bind_eq_ok.mpr ⟨fields, _, ranFields, bind_eq_ok.mpr ⟨_, _, sharedTail_run expected actual afterFields,
    bind_eq_ok.mpr ⟨equations, _, liftExcept_eq_ok.mpr ⟨tailEquations_eq_ok_iff.mpr plan, rfl⟩, ranTails⟩⟩⟩

/-- The first equation is solved, with one round less if something was found before. -/
theorem SolvesWithin.cons {rounds : Nat} {solved : Substitution} {equation : Equation} {rest : List Equation}
    (atOnce : UnifiesWithin rounds equation.expected equation.actual)
    (applied : ∀ fewer, rounds = fewer + 1 →
      UnifiesWithin fewer (solved.apply equation.expected) (solved.apply equation.actual))
    (later : ∀ found : Substitution, SolvesWithin rounds (found.compose solved) rest) :
    SolvesWithin rounds solved (equation :: rest) := by
  intro kinds kinds₁ posed live issued supply valuation below covered enough sofar paid kinded implied admits
    posedSolved
  obtain ⟨expectedKinded, actualKinded⟩ := kinded equation (List.mem_cons_self ..)
  obtain ⟨middle, _, admits₁, foundSolved, stillSolved⟩ := sofar.factors admits posedSolved
  obtain ⟨live₁, covered₁, noMore, fewer⟩ := sofar.live paid covered
  have proper := sofar.respects.proper
  have kinded₁ : ∀ {type : Ty}, type.Kinded kinds → (solved.apply type).Kinded kinds₁ := by
    intro type typeKinded
    rw [Substitution.apply_eq_mapVars typeKinded.within.flat]
    exact sofar.carries.kinded typeKinded
  have readBack : ∀ {valuation : Valuation} {type : Ty}, solved.SolvedBy valuation → type.Kinded kinds →
      (solved.apply type).read valuation = type.read valuation :=
    fun solvedBy typeKinded =>
      Substitution.read_apply proper solvedBy typeKinded.within.canonical
  have leads : ∀ {valuation : Valuation}, (∀ equation ∈ posed, equation.SolvedBy valuation) →
      solved.SolvedBy valuation →
      (solved.apply equation.expected).read valuation = (solved.apply equation.actual).read valuation := by
    intro valuation posedSolved solvedBy
    rw [readBack solvedBy expectedKinded, readBack solvedBy actualKinded]
    exact implied posedSolved equation (List.mem_cons_self ..)
  -- A round is spent only under a substitution that binds something, and then fewer variables are left.
  have first : ∃ (found : Substitution) (after : Supply),
      Unified supply.issued (solved.apply equation.expected) (solved.apply equation.actual) found after.issued ∧
      solve rounds solved (equation :: rest) supply = solve rounds (found.compose solved) rest after := by
    by_cases empty : solved = {}
    · subst empty
      simp only [Substitution.apply_empty] at kinded₁ leads ⊢
      obtain ⟨found, after, ran⟩ := atOnce (sofar.below below) covered₁ (Nat.le_trans noMore enough)
        (kinded₁ expectedKinded) (kinded₁ actualKinded) admits₁ (leads stillSolved foundSolved)
      exact ⟨found, after, unified_of_run.1 _ _ _ _ _ _ ran, solve_of_empty ran rest⟩
    · have := fewer empty
      obtain ⟨left, rfl⟩ := Nat.exists_eq_succ_of_ne_zero (show rounds ≠ 0 by omega)
      obtain ⟨found, after, ran⟩ := applied left rfl (sofar.below below) covered₁ (by omega) (kinded₁ expectedKinded)
        (kinded₁ actualKinded) admits₁ (leads stillSolved foundSolved)
      exact ⟨found, after, unified_of_run.1 _ _ _ _ _ _ ran, solve_of_nonempty empty ran rest⟩
  obtain ⟨found, after, unified, run⟩ := first
  obtain ⟨kinds₂, next, paidNext⟩ := unified.advance (sofar.below below) (kinded₁ expectedKinded)
    (kinded₁ actualKinded)
  have together := sofar.compose next below fun valuation _ posedSolved solvedBy =>
    List.forall_mem_singleton.mpr (leads posedSolved solvedBy)
  rw [List.append_nil] at together
  rw [Succeeds, run]
  exact later found below covered enough together (paid.compose paidNext (sofar.apart below next.respects))
    (fun other inRest => kinded other (List.mem_cons_of_mem _ inRest))
    (fun valuation posedSolved other inRest => implied posedSolved other (List.mem_cons_of_mem _ inRest))
    admits posedSolved

/-- Unification succeeds where it can. -/
theorem unifiesWithin :
    (∀ (rounds : Nat) (expected actual : Ty), UnifiesWithin rounds expected actual) ∧
    (∀ (rounds : Nat) (solved : Substitution) (equations : List Equation), SolvesWithin rounds solved equations) := by
  apply unifyWithin_induction
  case vars =>
    intro rounds left right kinds live supply valuation _ _ _ leftKinded rightKinded admits same
    obtain ⟨found, success⟩ := unifyVars_ok (admits.values leftKinded) (admits.values rightKinded) same
    rw [unifyWithin]
    exact ⟨found, supply, liftExcept_eq_ok.mpr ⟨success, rfl⟩⟩
  case varLeft =>
    intro rounds v type notVar kinds live supply valuation _ _ _ expectedKinded actualKinded admits same
    have absent := absent_iff.mpr (actualKinded.absent_of_read_eq expectedKinded same (notVar _))
    rw [unifyWithin_var_left rounds v notVar]
    exact ⟨_, supply, liftExcept_eq_ok.mpr ⟨bindVar_ok _ absent notVar (admits.values expectedKinded) same, rfl⟩⟩
  case varRight =>
    intro rounds type v notVar kinds live supply valuation _ _ _ expectedKinded actualKinded admits same
    have absent := absent_iff.mpr (expectedKinded.absent_of_read_eq actualKinded same.symm (notVar _))
    rw [unifyWithin_var_right rounds v notVar]
    exact ⟨_, supply, liftExcept_eq_ok.mpr ⟨bindVar_ok _ absent notVar (admits.values actualKinded) same.symm, rfl⟩⟩
  case list =>
    intro rounds element element' unifies kinds live supply valuation below covered enough expectedKinded actualKinded
      admits same
    rw [unifyWithin]
    exact unifies below covered enough expectedKinded actualKinded admits (Ty.list.inj same)
  case parts =>
    intro rounds expected actual equations split solves
    exact solves.parts split
  case rows =>
    intro rounds expected actual expectedRecord actualRecord solves _
    exact solves.rows expectedRecord actualRecord
  case atom =>
    intro rounds type basic kinds live supply valuation _ _ _ _ _ _ _
    rw [unifyWithin_of_isAtom rounds basic]
    exact ⟨{}, supply, rfl⟩
  case clash =>
    intro rounds expected actual clash kinds live supply valuation _ _ _ _ _ _ same
    exact absurd same (clash.read_ne valuation)
  case nil =>
    intro rounds solved kinds kinds₁ posed live issued supply valuation _ _ _ _ _ _ _ _ _
    exact solve_nil _ _ _
  case cons =>
    intro rounds solved equation rest atOnce applied later
    exact SolvesWithin.cons atOnce applied later

/-! ## The number of rounds -/

/-- A type has no more variables than constructors. -/
theorem Ty.length_occurrences_le (type : Ty) : type.occurrences.length ≤ type.size := by
  have ofRow : ∀ fields : Row, (fields.All fun type => type.occurrences.length ≤ type.size) →
      fields.occurrences.length ≤ fields.size := by
    intro fields
    induction fields using Row.induction with
    | empty => intro _; exact Nat.le_refl _
    | field name type rest ih =>
      intro each
      have first := each _ (List.mem_cons_self ..)
      have others := ih fun entry member => each entry (List.mem_cons_of_mem _ member)
      simp only [Row.occurrences, Row.size, List.length_append] at first others ⊢
      omega
  induction type using Ty.induction with
  | atom type basic => rw [occurrences_of_isAtom basic]; exact Nat.zero_le _
  | var v => exact Nat.le_refl _
  | tuple first second ih ih' => simp only [occurrences, size, List.length_append]; omega
  | triple first second third ih ih' ih'' => simp only [occurrences, size, List.length_append]; omega
  | list element ih => simp only [occurrences, size]; omega
  | function source target ih ih' => simp only [occurrences, size, List.length_append]; omega
  | record fields ih =>
    have := ofRow fields ih
    simp only [occurrences, size]
    omega
  | extension base fields ih ih' =>
    have := ofRow fields ih'
    simp only [occurrences, size, List.length_append]
    omega

/-- The kinding of the variables in a set. -/
def Kinding.on (kinds : Kinding) (live : Finset VarId) : Kinding := fun id => if id ∈ live then kinds id else none

theorem Kinding.on_sub (kinds : Kinding) (live : Finset VarId) : (kinds.on live).Sub kinds := by
  intro id kind known
  rw [on] at known
  split at known
  · exact known
  · cases known

theorem Kinding.on_over (kinds : Kinding) (live : Finset VarId) : (kinds.on live).Over live := by
  intro id known
  by_contra absent
  exact known (if_neg absent)

theorem Kinding.Sub.below {wider : Kinding} (sub : kinds.Sub wider) (below : wider.signature.Issued issued) :
    kinds.signature.Issued issued := by
  intro index known
  obtain ⟨constraint, isKnown⟩ := Option.ne_none_iff_exists'.mp known
  exact below index (by rw [sub.signature isKnown]; exact Option.some_ne_none _)

/-- A valuation that follows a kinding follows every narrower one. -/
theorem Kinding.Sub.admits {wider : Kinding} {valuation : Valuation} (sub : kinds.Sub wider)
    (admits : wider.Admits valuation) : kinds.Admits valuation where
  flat := admits.flat
  uniform u w known same := by
    obtain ⟨kind, isKind⟩ := Option.ne_none_iff_exists'.mp known
    exact admits.uniform (by rw [sub isKind]; exact Option.some_ne_none _) same
  values _ _ isKind := admits.values (sub isKind)

theorem Ty.Kinded.on {type : Ty} (kinded : type.Kinded kinds) {live : Finset VarId}
    (included : ∀ v ∈ type.occurrences, v.id ∈ live) : type.Kinded (kinds.on live) :=
  kinded.of_agree fun v inType _ isKind => (if_pos (included v inType)).trans isKind

/-- Kinded types that an admissible valuation makes equal have a unifier. -/
theorem unify_succeeds {expected actual : Ty} {supply : Supply} {valuation : Valuation}
    (below : kinds.signature.Issued supply.issued) (expectedKinded : expected.Kinded kinds)
    (actualKinded : actual.Kinded kinds) (admits : kinds.Admits valuation)
    (same : expected.read valuation = actual.read valuation) : Succeeds (unify expected actual) supply := by
  let live := ((expected.occurrences ++ actual.occurrences).map TypeVar.id).toFinset
  have enough : live.card ≤ unificationRounds expected actual := by
    have count : live.card ≤ ((expected.occurrences ++ actual.occurrences).map TypeVar.id).length :=
      List.toFinset_card_le _
    have := expected.length_occurrences_le
    have := actual.length_occurrences_le
    rw [List.length_map, List.length_append] at count
    rw [unificationRounds]
    omega
  have sub : (kinds.on live).Sub kinds := Kinding.on_sub kinds live
  have inLive : ∀ {v : TypeVar}, v ∈ expected.occurrences ++ actual.occurrences → v.id ∈ live :=
    fun member => List.mem_toFinset.mpr (List.mem_map_of_mem member)
  exact unifiesWithin.1 _ expected actual (sub.below below) (Kinding.on_over kinds live) enough
    (expectedKinded.on fun v inType => inLive (List.mem_append_left _ inType))
    (actualKinded.on fun v inType => inLive (List.mem_append_right _ inType)) (sub.admits admits) same

end RowInference
