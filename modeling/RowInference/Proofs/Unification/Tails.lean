import RowInference.Proofs.Unification.Kinds

/-! # Unification of kinded types

The common fields of two records do not contain their tails, since a type would have to contain itself otherwise. So the
tails are still free when the common fields have been solved, and they are bound to types that fit below the fields.
With that, every derivation of a unifier for kinded types is an advance.
-/

namespace RowInference

open Substitution (singleton)

variable {kinds : Kinding} {issued : Nat}

/-! ## Tails -/

/-- The substitution neither binds nor mentions the variable. -/
structure Substitution.Untouched (subst : Substitution) (id : VarId) : Prop where
  unbound : subst[id]? = none
  unmentioned : ∀ ⦃key : VarId⦄ ⦃type : Ty⦄, subst[key]? = some type → ∀ v ∈ type.occurrences, v.id ≠ id

/-- Solving equations leaves alone what does not occur in them. -/
theorem Solution.untouched {issued' : Nat} {equations : List Equation} {result : Substitution} {sig : Signature}
    (solution : Solution issued {} equations result issued') (below : sig.Issued issued) {id : VarId}
    (known : sig id ≠ none) (within : ∀ equation ∈ equations, equation.Within sig)
    (absent : ∀ equation ∈ equations, (∀ v ∈ equation.expected.occurrences, v.id ≠ id) ∧
      ∀ v ∈ equation.actual.occurrences, v.id ≠ id) : result.Untouched id := by
  have others : ∀ {type : Ty}, type.Within sig → (∀ v ∈ type.occurrences, v.id ≠ id) →
      type.Within (sig.restrict (· ≠ id)) := by
    intro type typeWithin typeAbsent
    refine ⟨typeWithin.canonical, typeWithin.flat, fun v inType => ?_⟩
    have kept : sig.restrict (· ≠ id) v.id = sig v.id := if_pos (typeAbsent v inType)
    rw [kept]
    exact typeWithin.known v inType
  have solver := solution.solver (below.restrict _) Substitution.respects_empty Substitution.settled_empty
    fun equation member => ⟨others (within equation member).1 (absent equation member).1,
      others (within equation member).2 (absent equation member).2⟩
  have different : ∀ {other : VarId}, (sig.restrict (· ≠ id)).grow issued issued' other ≠ none → other ≠ id := by
    intro other isKnown same
    rcases Signature.of_grow_restrict isKnown with kept | ⟨index, isIndex, above, _⟩
    · exact kept same
    · have := below index (by rwa [← isIndex, same])
      omega
  constructor
  · cases bound : result[id]? with
    | none => rfl
    | some type => exact absurd rfl (different (solver.respects.key bound))
  · intro key type bound v inType
    apply different
    rw [(solver.respects.type bound).known v inType]
    exact Option.some_ne_none _

namespace Substitution.Untouched

variable {subst : Substitution} {id : VarId}

theorem value (untouched : subst.Untouched id) (constraint : Option Constraint) :
    subst.value ⟨id, constraint⟩ = .var ⟨id, constraint⟩ := value_of_none untouched.unbound

/-- An untouched variable does not turn up where it did not occur. -/
theorem absent (untouched : subst.Untouched id) (settled : subst.Settled) (proper : subst.Proper) {row : Row}
    (rowAbsent : ∀ v ∈ row.occurrences, v.id ≠ id) : ∀ v ∈ (row.mapVars subst.value).occurrences, v.id ≠ id := by
  intro v inMapped
  have inRecord : v ∈ ((Ty.record row).mapVars subst.value).occurrences := inMapped
  obtain ⟨u, inRow, inValue⟩ := Ty.mem_occurrences_mapVars inRecord
  rw [settled.value proper] at inValue
  cases bound : subst[u.id]? with
  | none =>
    rw [bound] at inValue
    obtain rfl := List.mem_singleton.mp inValue
    exact rowAbsent v inRow
  | some type =>
    rw [bound] at inValue
    exact untouched.unmentioned bound v inValue

end Substitution.Untouched

/-- An open row on an unbound tail keeps its tail. -/
theorem apply_openRow {subst : Substitution} {v : TypeVar} (unbound : subst[v.id]? = none) {fields : Row}
    (flat : fields.Flat) :
    subst.apply ((Ty.var v).openRow fields) = (Ty.var v).openRow (fields.mapVars subst.value) := by
  have value := Substitution.value_of_none unbound
  rw [Ty.openRow, Ty.openRow, Row.isEmpty_mapVars]
  split
  · exact value
  · rw [Substitution.apply_eq_mapVars (by exact ⟨rfl, trivial, flat⟩), Ty.mapVars, Ty.mapVars, value]
    rfl

/-- An unconstrained variable is bound to whatever it has to equal. -/
theorem Unified.of_var {issued' : Nat} {id : VarId} {type : Ty} {found : Substitution}
    (unified : Unified issued (.var ⟨id, none⟩) type found issued')
    (different : ∀ constraint, type ≠ .var ⟨id, constraint⟩) :
    found = singleton ⟨id, none⟩ type ∧ type.occurs id = false ∧ issued' = issued := by
  cases unified with
  | bind bound =>
    cases bound with
    | @same _ right sameId => exact absurd (by rw [show id = right.id from sameId]) (different right.constraint)
    | left absent _ => exact ⟨rfl, absent, rfl⟩
    | right constrained => exact absurd rfl (constrained _ rfl)
  | atom basic => cases basic
  | parts split => cases split
  | rows expectedRecord => cases expectedRecord

/-- An equation for an unbound tail binds it. -/
theorem Solution.bind_tail {issued' : Nat} {id : VarId} {type : Ty} {rest : List Equation}
    {solved result : Substitution}
    (solution : Solution issued solved (⟨.var ⟨id, none⟩, type⟩ :: rest) result issued') (unbound : solved[id]? = none)
    (different : ∀ constraint, solved.apply type ≠ .var ⟨id, constraint⟩) :
    (solved.apply type).occurs id = false ∧
      Solution issued ((singleton ⟨id, none⟩ (solved.apply type)).compose solved) rest result issued' := by
  cases solution with
  | step first later =>
    have stays : solved.apply (.var ⟨id, none⟩) = .var ⟨id, none⟩ := Substitution.value_of_none unbound
    rw [stays] at first
    obtain ⟨rfl, absent, rfl⟩ := first.of_var different
    exact ⟨absent, later⟩

theorem Solution.of_nil {issued' : Nat} {solved result : Substitution}
    (solution : Solution issued solved [] result issued') : result = solved ∧ issued' = issued := by
  cases solution
  exact ⟨rfl, rfl⟩

theorem fieldEquations_absent {expected actual : Ty} {id : VarId}
    (left : ∀ v ∈ expected.rowParts.1.occurrences, v.id ≠ id)
    (right : ∀ v ∈ actual.rowParts.1.occurrences, v.id ≠ id) :
    ∀ equation ∈ fieldEquations expected actual, (∀ v ∈ equation.expected.occurrences, v.id ≠ id) ∧
      ∀ v ∈ equation.actual.occurrences, v.id ≠ id := by
  intro equation member
  obtain ⟨pair, inCommon, rfl⟩ := List.mem_map.mp member
  obtain ⟨key, inLeft, inRight⟩ := Row.mem_common inCommon
  exact ⟨fun v inType => left v (Row.mem_occurrences_of_mem inLeft inType),
    fun v inType => right v (Row.mem_occurrences_of_mem (Row.mem_toList_of_get? inRight) inType)⟩

theorem disjoint_mapVars {row other : Row} {replace : TypeVar → Ty} :
    row.Disjoint (other.mapVars replace) ↔ row.Disjoint other := by
  simp [Row.Disjoint]

section Solvable

variable {valuation : Valuation} {left right : Row} {leftTail rightTail : TypeVar}

/-- Where records are read as one, their common fields are. -/
theorem agree_of_read_eq (expected actual : Ty) (expectedRecord : expected.isRecord = true)
    (actualRecord : actual.isRecord = true) (leftSorted : expected.row.Sorted) (rightSorted : actual.row.Sorted)
    (same : expected.read valuation = actual.read valuation) : expected.row.Agree valuation actual.row := by
  intro key type partner inLeft inRight
  have look := Ty.get?_row_read leftSorted inLeft valuation expectedRecord
  rw [same, Ty.get?_row_read rightSorted inRight valuation actualRecord] at look
  exact (Option.some.inj look).symm

theorem readSorted (valuation : Valuation) {row : Row} (sorted : row.Sorted) : (row.read valuation).Sorted :=
  (Row.sorted_mapVars _).mpr sorted

/-- The tail of a record that equals a closed one is the closed record without the fields on top of it. -/
theorem closed_tail_solved (leftSorted : left.Sorted) (disjoint : (valuation.value leftTail).row.Disjoint left)
    (same : (Ty.extension (.var leftTail) left).read valuation = (Ty.record right).read valuation) :
    Equation.SolvedBy ⟨.var leftTail, .record (right.without left)⟩ valuation := by
  have below := Ty.eq_record_of_flatten (valuation.canonical leftTail) (readSorted valuation leftSorted)
    (disjoint_mapVars.mpr disjoint) same
  rw [Row.read, ← Row.mapVars_without] at below
  exact below

theorem meet_tails_solved (leftSorted : left.Sorted) (sameFields : left.read valuation = right.read valuation)
    (leftAdmits : (Kind.tail left).Admits (valuation.value leftTail))
    (rightAdmits : (Kind.tail right).Admits (valuation.value rightTail))
    (same : (Ty.extension (.var leftTail) left).read valuation
      = (Ty.extension (.var rightTail) right).read valuation) :
    Equation.SolvedBy ⟨.var leftTail, .var rightTail⟩ valuation := by
  have sorted := readSorted valuation leftSorted
  have rightDisjoint : (valuation.value rightTail).row.Disjoint (left.read valuation) := by
    rw [sameFields]
    exact disjoint_mapVars.mpr rightAdmits.1
  change (valuation.value leftTail).flatten (left.read valuation)
    = (valuation.value rightTail).flatten (right.read valuation) at same
  rw [← sameFields] at same
  exact Ty.flatten_cancel sorted (Ty.row_sorted (valuation.canonical _)) (Ty.row_sorted (valuation.canonical _))
    (disjoint_mapVars.mpr leftAdmits.1) rightDisjoint leftAdmits.2 rightAdmits.2 same

/-- An open row is read as its tail with the fields on top. -/
theorem read_openRow (tail : Ty) (fields : Row) :
    (tail.openRow fields).read valuation = (tail.read valuation).overlay (fields.read valuation) := by
  rw [Ty.openRow, Ty.overlay, Row.read, Row.isEmpty_mapVars]
  split <;> rfl

/-- Two open records that are equal have a common tail: what is left of one tail without the fields that only the other
record has. -/
theorem shared_tails_solvable (leftSorted : left.Sorted) (rightSorted : right.Sorted)
    (leftLevel : (valuation.value leftTail).Level) (leftAdmits : (Kind.tail left).Admits (valuation.value leftTail))
    (rightAdmits : (Kind.tail right).Admits (valuation.value rightTail))
    (same : (Ty.extension (.var leftTail) left).read valuation
      = (Ty.extension (.var rightTail) right).read valuation) :
    (Kind.tail ((right.without left).extend left)).Admits ((valuation.value leftTail).strip (right.without left)) ∧
      valuation.value leftTail = ((valuation.value leftTail).strip (right.without left)).overlay
        ((right.without left).read valuation) ∧
      valuation.value rightTail = ((valuation.value leftTail).strip (right.without left)).overlay
        ((left.without right).read valuation) := by
  have agree : left.Agree valuation right := agree_of_read_eq (.extension (.var leftTail) left)
    (.extension (.var rightTail) right) rfl rfl leftSorted rightSorted same
  have merged := agree.read_merge leftSorted rightSorted
  simp only [Row.read, Row.mapVars_extend, Row.mapVars_without] at merged
  obtain ⟨disjoint, ofLeft, ofRight⟩ :=
    Ty.common_part (readSorted valuation leftSorted) (readSorted valuation rightSorted) (valuation.canonical _)
      (valuation.canonical _) leftLevel (disjoint_mapVars.mpr leftAdmits.1)
      (disjoint_mapVars.mpr rightAdmits.1) leftAdmits.2 rightAdmits.2 same merged
  simp only [Row.read, ← Row.mapVars_without, ← Row.mapVars_extend, Ty.strip_mapVars] at disjoint ofLeft ofRight
  exact ⟨⟨disjoint_mapVars.mp disjoint, Ty.strip_notBare leftLevel⟩, ofLeft, ofRight⟩

end Solvable

/-! ## Solving the planned equations -/

section Planned

variable {posed ensured : List Equation} {solved found : Substitution} {issued₁ issued' : Nat} {kinds₁ : Kinding}

/-- An open record on an untouched tail keeps its kind. -/
theorem Advance.kinded_extension (sofar : Advance kinds posed issued solved issued₁ kinds₁ ensured) {id : VarId}
    {fields : Row} (kinded : (Ty.extension (.var ⟨id, none⟩) fields).Kinded kinds) (untouched : solved.Untouched id) :
    (Ty.extension (.var ⟨id, none⟩) (fields.mapVars solved.value)).Kinded kinds₁ := by
  have after := sofar.carries.kinded kinded
  rw [Ty.mapVars, Ty.mapVars, untouched.value] at after
  exact after

/-- What has been found does not change the reading of a row. -/
theorem Advance.read_row (sofar : Advance kinds posed issued solved issued₁ kinds₁ ensured) {row : Row}
    (kinded : row.Kinded kinds) {valuation : Valuation} (solvedSofar : solved.SolvedBy valuation) :
    (row.mapVars solved.value).read valuation = row.read valuation := by
  have whole : (Ty.record row).Within kinds.signature := Ty.within_record.mpr kinded.within
  have same := Substitution.read_apply sofar.respects.proper solvedSofar whole.canonical
  rw [Substitution.apply_eq_mapVars whole.flat] at same
  exact Ty.record.inj same

/-- The tail of an open record takes the remaining fields of a closed one. -/
theorem Advance.close (sofar : Advance kinds posed issued solved issued₁ kinds₁ ensured)
    (paid : Paid issued solved issued₁) (below : kinds.signature.Issued issued) {id : VarId} {left right : Row}
    (kinded : (Ty.extension (.var ⟨id, none⟩) left).Kinded kinds) (rightKinded : right.Kinded kinds)
    (untouched : solved.Untouched id)
    (tails : Solution issued₁ solved [⟨.var ⟨id, none⟩, .record (right.without left)⟩] found issued')
    (leads : ∀ ⦃valuation : Valuation⦄, (∀ equation ∈ ensured, equation.SolvedBy valuation) →
      (Ty.extension (.var ⟨id, none⟩) left).read valuation = (Ty.record right).read valuation) :
    ∃ kinds', Advance kinds posed issued found issued' kinds' ensured ∧ Paid issued found issued' := by
  have restKinded : (right.without left).Kinded kinds := rightKinded.without left
  have rest : (Ty.record (right.without left)).Within kinds.signature := Ty.within_record.mpr restKinded.within
  have applied : solved.apply (.record (right.without left)) = .record ((right.without left).mapVars solved.value) :=
    Substitution.apply_eq_mapVars rest.flat
  obtain ⟨absent, later⟩ := tails.bind_tail untouched.unbound (by simp [applied])
  obtain ⟨rfl, rfl⟩ := later.of_nil
  have kinded₁ := sofar.kinded_extension kinded untouched
  have fits : (solved.apply (.record (right.without left))).FitsTail kinds₁ (left.mapVars solved.value) := by
    rw [applied]
    exact ⟨sofar.carries.kindedRow restKinded, (Row.without_disjoint right left).mapVars _⟩
  refine ⟨_, sofar.bind_tail below kinded₁ fits absent ?_, paid.bind _ _⟩
  intro valuation admits solvedEnsured solvedSofar
  obtain ⟨⟨_, base, isTail⟩, _⟩ := kinded₁
  cases base
  have disjoint := disjoint_mapVars.mp (admits.tail isTail).1
  rw [Equation.SolvedBy, Substitution.read_apply sofar.respects.proper solvedSofar rest.canonical]
  exact closed_tail_solved kinded.2.sorted disjoint (leads solvedEnsured)

/-- Two tails below the same fields become one. -/
theorem Advance.meet (sofar : Advance kinds posed issued solved issued₁ kinds₁ ensured)
    (paid : Paid issued solved issued₁) (below : kinds.signature.Issued issued) {leftId rightId : VarId}
    {left right : Row} (different : leftId ≠ rightId)
    (leftKinded : (Ty.extension (.var ⟨leftId, none⟩) left).Kinded kinds)
    (rightKinded : (Ty.extension (.var ⟨rightId, none⟩) right).Kinded kinds)
    (leftUntouched : solved.Untouched leftId) (rightUntouched : solved.Untouched rightId)
    (sameFields : left.mapVars solved.value = right.mapVars solved.value)
    (tails : Solution issued₁ solved [⟨.var ⟨leftId, none⟩, .var ⟨rightId, none⟩⟩] found issued')
    (leads : ∀ ⦃valuation : Valuation⦄, (∀ equation ∈ ensured, equation.SolvedBy valuation) →
      (Ty.extension (.var ⟨leftId, none⟩) left).read valuation
        = (Ty.extension (.var ⟨rightId, none⟩) right).read valuation) :
    ∃ kinds', Advance kinds posed issued found issued' kinds' ensured ∧ Paid issued found issued' := by
  have applied : solved.apply (.var ⟨rightId, none⟩) = .var ⟨rightId, none⟩ := rightUntouched.value none
  obtain ⟨absent, later⟩ := tails.bind_tail leftUntouched.unbound (by
    rw [applied]
    rintro constraint ⟨⟩
    exact different rfl)
  obtain ⟨rfl, rfl⟩ := later.of_nil
  have leftKinded₁ := sofar.kinded_extension leftKinded leftUntouched
  obtain ⟨⟨_, rightBase, rightTail⟩, _⟩ := sofar.kinded_extension rightKinded rightUntouched
  cases rightBase
  have fits : (solved.apply (.var ⟨rightId, none⟩)).FitsTail kinds₁ (left.mapVars solved.value) := by
    rw [applied, sameFields]
    exact ⟨rfl, rightTail⟩
  refine ⟨_, sofar.bind_tail below leftKinded₁ fits absent ?_, paid.bind _ _⟩
  intro valuation admits solvedEnsured solvedSofar
  obtain ⟨⟨_, leftBase, leftTail⟩, _⟩ := leftKinded₁
  cases leftBase
  have sameRead : left.read valuation = right.read valuation := by
    rw [← sofar.read_row leftKinded.2 solvedSofar, sameFields, sofar.read_row rightKinded.2 solvedSofar]
  have leftAdmits := admits.tail leftTail
  have rightAdmits := admits.tail rightTail
  rw [applied]
  exact meet_tails_solved leftKinded.2.sorted sameRead ⟨disjoint_mapVars.mp leftAdmits.1, leftAdmits.2⟩
    ⟨disjoint_mapVars.mp rightAdmits.1, rightAdmits.2⟩ (leads solvedEnsured)

/-- A tail below all of the fields may stand, with some of them on top, below the others. -/
theorem fitsTail_openRow {id : VarId} {inner outer : Row} (isTail : kinds id = some (.tail (inner.extend outer)))
    (kinded : inner.Kinded kinds) (sorted : outer.Sorted) (disjoint : inner.Disjoint outer) :
    ((Ty.var ⟨id, none⟩).openRow inner).FitsTail kinds outer := by
  rw [Ty.openRow]
  split
  · next empty =>
    rw [Row.isEmpty_iff.mp empty, Row.empty_extend sorted] at isTail
    exact ⟨rfl, isTail⟩
  · exact ⟨⟨id, rfl, isTail⟩, kinded, disjoint⟩

theorem absent_openRow {id shared : VarId} {fields : Row} (different : shared ≠ id)
    (absent : ∀ v ∈ fields.occurrences, v.id ≠ id) :
    ∀ v ∈ ((Ty.var ⟨shared, none⟩).openRow fields).occurrences, v.id ≠ id := by
  rw [Ty.openRow]
  split
  · intro v member
    obtain rfl := List.mem_singleton.mp member
    exact different
  · intro v member
    rcases List.mem_append.mp member with inBase | inFields
    · obtain rfl := List.mem_singleton.mp inBase
      exact different
    · exact absent v inFields

theorem openRow_ne_var {id shared : VarId} (different : shared ≠ id) (fields : Row) (constraint : Option Constraint) :
    (Ty.var ⟨shared, none⟩).openRow fields ≠ .var ⟨id, constraint⟩ := by
  rw [Ty.openRow]
  split
  · rintro ⟨⟩
    exact different rfl
  · simp

theorem Row.absent_without {row : Row} {id : VarId} (other : Row) (absent : ∀ v ∈ row.occurrences, v.id ≠ id) :
    ∀ v ∈ (row.without other).occurrences, v.id ≠ id := by
  intro v inRow
  obtain ⟨entry, member, inType⟩ := Row.mem_occurrences.mp inRow
  exact absent v (Row.mem_occurrences_of_mem (Row.mem_toList_without member) inType)

/-- Issue the tail that two open records get in common. -/
theorem Advance.issue_shared (sofar : Advance kinds posed issued solved issued₁ kinds₁ ensured)
    (below : kinds.signature.Issued issued) {leftId rightId : VarId} {left right : Row}
    (leftKinded : (Ty.extension (.var ⟨leftId, none⟩) left).Kinded kinds₁)
    (rightKinded : (Ty.extension (.var ⟨rightId, none⟩) right).Kinded kinds₁)
    (leads : ∀ ⦃valuation : Valuation⦄, (∀ equation ∈ ensured, equation.SolvedBy valuation) →
      solved.SolvedBy valuation → (Ty.extension (.var ⟨leftId, none⟩) left).read valuation
        = (Ty.extension (.var ⟨rightId, none⟩) right).read valuation) :
    Advance kinds posed issued solved (issued₁ + 1)
      (kinds₁.add (.generated issued₁) (.tail ((right.without left).extend left)))
      (ensured ++ [⟨.var ⟨leftId, none⟩, (Ty.var ⟨.generated issued₁, none⟩).openRow (right.without left)⟩,
        ⟨.var ⟨rightId, none⟩, (Ty.var ⟨.generated issued₁, none⟩).openRow (left.without right)⟩]) := by
  have below₁ := sofar.below below
  have grown := Signature.sub_grow below₁ (issued₁ + 1)
  have sharedKnown : kinds₁.signature.grow issued₁ (issued₁ + 1) (.generated issued₁) = some none :=
    Signature.grow_new (Nat.le_refl _) (Nat.lt_succ_self _)
  have tailKnown : ∀ {id : VarId} {fields : Row}, (Ty.extension (.var ⟨id, none⟩) fields).Kinded kinds₁ →
      (Ty.var ⟨id, none⟩).Within kinds₁.signature :=
    fun kinded => (Ty.within_extension.mp kinded.within).2.1
  have openWithin : ∀ {fields : Row}, fields.Kinded kinds₁ →
      ((Ty.var ⟨.generated issued₁, none⟩).openRow fields).Within (kinds₁.signature.grow issued₁ (issued₁ + 1)) :=
    fun kinded => openRow_within sharedKnown (kinded.within.mono grown)
  have onlyRight : (right.without left).Kinded kinds₁ := rightKinded.2.without left
  have onlyLeft : (left.without right).Kinded kinds₁ := leftKinded.2.without right
  have fresh : Advance kinds₁ [⟨.extension (.var ⟨leftId, none⟩) left, .extension (.var ⟨rightId, none⟩) right⟩]
      issued₁ {} (issued₁ + 1) (kinds₁.add (.generated issued₁) (.tail ((right.without left).extend left)))
      [⟨.var ⟨leftId, none⟩, (Ty.var ⟨.generated issued₁, none⟩).openRow (right.without left)⟩,
        ⟨.var ⟨rightId, none⟩, (Ty.var ⟨.generated issued₁, none⟩).openRow (left.without right)⟩] := by
    apply advance_tail below₁
    · simp only [List.mem_cons, List.not_mem_nil, or_false, forall_eq_or_imp, forall_eq]
      exact ⟨⟨(tailKnown leftKinded).mono grown, openWithin onlyRight⟩,
        ⟨(tailKnown rightKinded).mono grown, openWithin onlyLeft⟩⟩
    · intro valuation admits same
      obtain ⟨⟨_, leftBase, leftTail⟩, leftFields⟩ := leftKinded
      obtain ⟨⟨_, rightBase, rightTail⟩, rightFields⟩ := rightKinded
      cases leftBase
      cases rightBase
      -- The value of the shared tail is what the left tail has beside the fields that only the right record lists.
      obtain ⟨admitted, ofLeft, ofRight⟩ := shared_tails_solvable leftFields.sorted rightFields.sorted
        (admits.flat _).level (admits.tail leftTail) (admits.tail rightTail) (same _ (List.mem_singleton_self _))
      have canonical : ((valuation.value ⟨leftId, none⟩).strip (right.without left)).Canonical :=
        Ty.strip_canonical (valuation.canonical _)
      have flat : ((valuation.value ⟨leftId, none⟩).strip (right.without left)).Flat := Ty.strip_flat (admits.flat _)
      generalize (valuation.value ⟨leftId, none⟩).strip (right.without left) = common at *
      refine ⟨common, canonical, flat, admitted, ?_⟩
      have agrees : (valuation.update (.generated issued₁) common canonical).AgreesBelow issued₁ valuation :=
        Valuation.update_agreesBelow (Nat.le_refl _)
      have readFields : ∀ {fields : Row}, fields.Kinded kinds₁ →
          fields.read (valuation.update (.generated issued₁) common canonical) = fields.read valuation :=
        fun kinded => Ty.record.inj ((Ty.within_record.mpr kinded.within).read_eq below₁ agrees)
      have readTail : ∀ {id : VarId} {fields : Row}, kinds₁ id = some (.tail fields) →
          (Ty.var ⟨id, none⟩).read (valuation.update (.generated issued₁) common canonical)
            = valuation.value ⟨id, none⟩ := by
        intro id fields isTail
        refine Valuation.update_of_ne ?_
        rintro rfl
        rw [new_of_issued below₁] at isTail
        cases isTail
      have readShared : (Ty.var ⟨.generated issued₁, none⟩).read
          (valuation.update (.generated issued₁) common canonical) = common := Valuation.update_self none
      simp only [List.mem_cons, List.not_mem_nil, or_false, forall_eq_or_imp, forall_eq, Equation.SolvedBy,
        read_openRow, readShared, readFields onlyRight, readFields onlyLeft, readTail leftTail, readTail rightTail]
      exact ⟨ofLeft, ofRight⟩
  have step := sofar.compose fresh below (by
    intro valuation _ solvedEnsured solvedSofar equation member
    obtain rfl := List.mem_singleton.mp member
    exact leads solvedEnsured solvedSofar)
  rwa [Substitution.empty_compose] at step

/-- A new binding, with what was found applied to it, is apart from what was found. -/
theorem apart_singleton {v : TypeVar} {type : Ty} (settled : solved.Settled) (unbound : solved[v.id]? = none) :
    solved.Apart (singleton v (solved.apply type)) := by
  have only : ∀ {id : VarId} {other : Ty}, (singleton v (solved.apply type))[id]? = some other →
      id = v.id ∧ other = solved.apply type := by
    intro id other bound
    rw [Substitution.getElem?_singleton] at bound
    split at bound
    · next same => exact ⟨same.symm, (Option.some.inj bound).symm⟩
    · cases bound
  constructor
  · intro id other bound
    rw [(only bound).1]
    exact unbound
  · intro id other bound u inType
    rw [(only bound).2] at inType
    exact Substitution.unbound_of_mem_apply settled.acyclic inType

/-- The binding of one tail does not reach the type for another one. -/
theorem apply_openRow_after {shared leftId : VarId} {forLeft forRight : Row} (settled : solved.Settled)
    (proper : solved.Proper) (leftUntouched : solved.Untouched leftId) (sharedUnbound : solved[shared]? = none)
    (leftNe : shared ≠ leftId) (forLeftFlat : (Ty.record forLeft).Flat)
    (forLeftCanonical : (Ty.record forLeft).Canonical)
    (forRightFlat : (Ty.record forRight).Flat) (forRightCanonical : (Ty.record forRight).Canonical)
    (absent : ∀ v ∈ forRight.occurrences, v.id ≠ leftId)
    (absentLeft : ((Ty.var ⟨shared, none⟩).openRow (forLeft.mapVars solved.value)).occurs leftId = false) :
    ((singleton ⟨leftId, none⟩ ((Ty.var ⟨shared, none⟩).openRow (forLeft.mapVars solved.value))).compose solved).apply
        ((Ty.var ⟨shared, none⟩).openRow forRight)
      = (Ty.var ⟨shared, none⟩).openRow (forRight.mapVars solved.value) := by
  have openFlat : ((Ty.var ⟨shared, none⟩).openRow forLeft).Flat := by
    rw [Ty.openRow]
    split
    · trivial
    · exact ⟨rfl, trivial, forLeftFlat⟩
  have appliedLeft : solved.apply ((Ty.var ⟨shared, none⟩).openRow forLeft)
      = (Ty.var ⟨shared, none⟩).openRow (forLeft.mapVars solved.value) := apply_openRow sharedUnbound forLeftFlat
  have apart : solved.Apart (singleton ⟨leftId, none⟩ (solved.apply ((Ty.var ⟨shared, none⟩).openRow forLeft))) :=
    apart_singleton settled leftUntouched.unbound
  rw [appliedLeft] at apart
  have singleProper : (singleton ⟨leftId, none⟩
      ((Ty.var ⟨shared, none⟩).openRow (forLeft.mapVars solved.value))).Proper := by
    intro id type bound
    rw [Substitution.getElem?_singleton] at bound
    split at bound
    · cases bound
      rw [← appliedLeft]
      refine ⟨Substitution.apply_canonical proper.canonical ?_, Substitution.apply_flat openFlat⟩
      rw [Ty.openRow]
      split
      · trivial
      · exact ⟨trivial, forLeftCanonical⟩
    · cases bound
  -- Applying both substitutions at once is applying one after the other, and the second has nothing to replace.
  have stays : forRight.mapVars ((singleton ⟨leftId, none⟩
      ((Ty.var ⟨shared, none⟩).openRow (forLeft.mapVars solved.value))).compose solved).value
        = forRight.mapVars solved.value := by
    have mapped : solved.apply (.record forRight) = .record (forRight.mapVars solved.value) :=
      Substitution.apply_eq_mapVars forRightFlat
    have whole := (Substitution.joined_compose _ _).apply apart settled.acyclic (singleton_settled absentLeft).acyclic
      proper.canonical singleProper.canonical (show (Ty.record forRight).Canonical from forRightCanonical)
    rw [mapped, Substitution.apply_eq_mapVars forRightFlat, Substitution.apply_eq_self] at whole
    · exact Ty.record.inj whole
    · rw [← mapped]
      exact Substitution.apply_flat forRightFlat
    · intro v inFields
      rw [Substitution.getElem?_singleton, if_neg]
      exact (leftUntouched.absent settled proper absent v inFields).symm
  rw [apply_openRow _ forRightFlat, stays]
  rw [Substitution.getElem?_compose, sharedUnbound, Substitution.getElem?_singleton, if_neg leftNe.symm]
  rfl

/-- Equations for two tails bind both, the second one unchanged by the binding of the first. -/
theorem Solution.bind_both {shared leftId rightId : VarId} {forLeft forRight : Row}
    (solution : Solution issued solved
      [⟨.var ⟨leftId, none⟩, (Ty.var ⟨shared, none⟩).openRow forLeft⟩,
        ⟨.var ⟨rightId, none⟩, (Ty.var ⟨shared, none⟩).openRow forRight⟩] found issued')
    (settled : solved.Settled) (proper : solved.Proper) (leftUntouched : solved.Untouched leftId)
    (rightUnbound : solved[rightId]? = none) (sharedUnbound : solved[shared]? = none) (different : leftId ≠ rightId)
    (leftNe : shared ≠ leftId) (rightNe : shared ≠ rightId) (forLeftFlat : (Ty.record forLeft).Flat)
    (forLeftCanonical : (Ty.record forLeft).Canonical) (forRightFlat : (Ty.record forRight).Flat)
    (forRightCanonical : (Ty.record forRight).Canonical) (absent : ∀ v ∈ forRight.occurrences, v.id ≠ leftId) :
    found = (singleton ⟨rightId, none⟩ ((Ty.var ⟨shared, none⟩).openRow (forRight.mapVars solved.value))).compose
        ((singleton ⟨leftId, none⟩ ((Ty.var ⟨shared, none⟩).openRow (forLeft.mapVars solved.value))).compose solved) ∧
      issued' = issued ∧
      ((Ty.var ⟨shared, none⟩).openRow (forLeft.mapVars solved.value)).occurs leftId = false ∧
      ((Ty.var ⟨shared, none⟩).openRow (forRight.mapVars solved.value)).occurs rightId = false := by
  have appliedLeft : solved.apply ((Ty.var ⟨shared, none⟩).openRow forLeft)
      = (Ty.var ⟨shared, none⟩).openRow (forLeft.mapVars solved.value) := apply_openRow sharedUnbound forLeftFlat
  obtain ⟨absentLeft, later⟩ := solution.bind_tail leftUntouched.unbound (by
    rw [appliedLeft]
    exact openRow_ne_var leftNe _)
  rw [appliedLeft] at absentLeft later
  have appliedRight := apply_openRow_after settled proper leftUntouched sharedUnbound leftNe forLeftFlat
    forLeftCanonical forRightFlat forRightCanonical absent absentLeft
  have rightStays : ((singleton ⟨leftId, none⟩ ((Ty.var ⟨shared, none⟩).openRow (forLeft.mapVars solved.value))).compose
      solved)[rightId]? = none := by
    rw [Substitution.getElem?_compose, rightUnbound, Substitution.getElem?_singleton, if_neg different]
    rfl
  obtain ⟨absentRight, last⟩ := later.bind_tail rightStays (by
    rw [appliedRight]
    exact openRow_ne_var rightNe _)
  obtain ⟨rfl, rfl⟩ := last.of_nil
  rw [appliedRight] at absentRight ⊢
  exact ⟨rfl, rfl, absentLeft, absentRight⟩

/-- Two open records with different fields get a common tail. -/
theorem Advance.bind_shared (sofar : Advance kinds posed issued solved issued₁ kinds₁ ensured)
    (below : kinds.signature.Issued issued) {shared leftId rightId : VarId} {left right forLeft forRight : Row}
    (different : leftId ≠ rightId) (leftNe : shared ≠ leftId)
    (isTail : kinds₁ shared = some (.tail (forLeft.extend left))) (merged : forLeft.extend left = forRight.extend right)
    (leftKinded : (Ty.extension (.var ⟨leftId, none⟩) left).Kinded kinds₁)
    (rightKinded : (Ty.extension (.var ⟨rightId, none⟩) right).Kinded kinds₁)
    (forLeftKinded : forLeft.Kinded kinds₁) (forRightKinded : forRight.Kinded kinds₁)
    (forLeftDisjoint : forLeft.Disjoint left) (forRightDisjoint : forRight.Disjoint right)
    (absent : ∀ v ∈ right.occurrences, v.id ≠ leftId) (absentForRight : ∀ v ∈ forRight.occurrences, v.id ≠ leftId)
    (absentLeft : ((Ty.var ⟨shared, none⟩).openRow forLeft).occurs leftId = false)
    (absentRight : ((Ty.var ⟨shared, none⟩).openRow forRight).occurs rightId = false)
    (leads : ∀ ⦃valuation : Valuation⦄, (∀ equation ∈ ensured, equation.SolvedBy valuation) →
      Equation.SolvedBy ⟨.var ⟨leftId, none⟩, (Ty.var ⟨shared, none⟩).openRow forLeft⟩ valuation ∧
      Equation.SolvedBy ⟨.var ⟨rightId, none⟩, (Ty.var ⟨shared, none⟩).openRow forRight⟩ valuation) :
    ∃ kinds', Advance kinds posed issued
      ((singleton ⟨rightId, none⟩ ((Ty.var ⟨shared, none⟩).openRow forRight)).compose
        ((singleton ⟨leftId, none⟩ ((Ty.var ⟨shared, none⟩).openRow forLeft)).compose solved)) issued₁
          kinds' ensured := by
  have first := sofar.bind_tail below leftKinded
    (fitsTail_openRow isTail forLeftKinded leftKinded.2.sorted forLeftDisjoint) absentLeft
    (fun _ _ solvedEnsured _ => (leads solvedEnsured).1)
  have rightAbsent : ∀ v ∈ (Ty.extension (.var ⟨rightId, none⟩) right).occurrences, v.id ≠ leftId := by
    intro v member
    rcases List.mem_append.mp member with inBase | inFields
    · obtain rfl := List.mem_singleton.mp inBase
      exact different.symm
    · exact absent v inFields
  have fits := fitsTail_openRow (merged ▸ isTail) forRightKinded rightKinded.2.sorted forRightDisjoint
  exact ⟨_, first.bind_tail below (rightKinded.bind rightAbsent)
    (fits.bind rightKinded.2 absent (absent_openRow leftNe absentForRight)) absentRight
    (fun _ _ solvedEnsured _ => (leads solvedEnsured).2)⟩

/-- Two open records with different fields get a common tail. -/
theorem Advance.share (sofar : Advance kinds posed issued solved issued₁ kinds₁ ensured)
    (paid : Paid issued solved issued₁) (below : kinds.signature.Issued issued) {leftId rightId : VarId}
    {left right : Row} (different : leftId ≠ rightId)
    (leftKinded : (Ty.extension (.var ⟨leftId, none⟩) left).Kinded kinds)
    (rightKinded : (Ty.extension (.var ⟨rightId, none⟩) right).Kinded kinds)
    (leftUntouched : solved.Untouched leftId) (rightUntouched : solved.Untouched rightId)
    (absent : ∀ v ∈ right.occurrences, v.id ≠ leftId)
    (merged : ((right.without left).extend left).mapVars solved.value
      = ((left.without right).extend right).mapVars solved.value)
    (tails : Solution (issued₁ + 1) solved
      [⟨.var ⟨leftId, none⟩, (Ty.var (.generated issued₁)).openRow (right.without left)⟩,
        ⟨.var ⟨rightId, none⟩, (Ty.var (.generated issued₁)).openRow (left.without right)⟩] found issued')
    (leads : ∀ ⦃valuation : Valuation⦄, (∀ equation ∈ ensured, equation.SolvedBy valuation) →
      (Ty.extension (.var ⟨leftId, none⟩) left).read valuation
        = (Ty.extension (.var ⟨rightId, none⟩) right).read valuation) :
    ∃ kinds', Advance kinds posed issued found issued' kinds' ensured ∧ Paid issued found issued' := by
  have below₁ := sofar.below below
  have proper := sofar.respects.proper
  have onlyRight : (right.without left).Kinded kinds := rightKinded.2.without left
  have onlyLeft : (left.without right).Kinded kinds := leftKinded.2.without right
  have leftKinded₁ := sofar.kinded_extension leftKinded leftUntouched
  have rightKinded₁ := sofar.kinded_extension rightKinded rightUntouched
  -- The new tail is not among the variables known so far.
  have sharedNew := new_of_issued below₁
  have sharedNe : ∀ {id : VarId} {fields : Row}, (Ty.extension (.var ⟨id, none⟩) fields).Kinded kinds₁ →
      VarId.generated issued₁ ≠ id := by
    rintro id fields ⟨⟨_, base, isTail⟩, _⟩ rfl
    cases base
    rw [sharedNew] at isTail
    cases isTail
  have sharedUnbound : solved[VarId.generated issued₁]? = none := by
    cases bound : solved[VarId.generated issued₁]? with
    | none => rfl
    | some type =>
      exact absurd (below.grow sofar.issues issued₁ (sofar.respects.key bound)) (Nat.lt_irrefl _)
  have absentOnlyLeft := Row.absent_without right leftKinded.tail_absent
  obtain ⟨rfl, rfl, absentForLeft, absentForRight⟩ := tails.bind_both sofar.settled proper leftUntouched
    rightUntouched.unbound sharedUnbound different (sharedNe leftKinded₁) (sharedNe rightKinded₁) onlyRight.flat
    onlyRight.canonical onlyLeft.flat onlyLeft.canonical absentOnlyLeft
  have issue := sofar.issue_shared below leftKinded₁ rightKinded₁ (by
    intro valuation solvedEnsured solvedSofar
    have readLeft := sofar.read_row leftKinded.2 solvedSofar
    have readRight := sofar.read_row rightKinded.2 solvedSofar
    have same := leads solvedEnsured
    simp only [Ty.read, Ty.mapVars, Row.read] at same readLeft readRight ⊢
    rw [readLeft, readRight, same])
  simp only [← Row.mapVars_without] at issue
  have sub := Kinding.sub_add sharedNew
    (.tail (((right.without left).mapVars solved.value).extend (left.mapVars solved.value)))
  rw [Row.mapVars_extend, Row.mapVars_extend] at merged
  obtain ⟨kinds', advance⟩ := issue.bind_shared below different (sharedNe leftKinded₁)
    (Kinding.add_self ..) merged (leftKinded₁.mono sub) (rightKinded₁.mono sub)
    ((sofar.carries.kindedRow onlyRight).mono sub)
    ((sofar.carries.kindedRow onlyLeft).mono sub) ((Row.without_disjoint right left).mapVars _)
    ((Row.without_disjoint left right).mapVars _) (leftUntouched.absent sofar.settled proper absent)
    (leftUntouched.absent sofar.settled proper absentOnlyLeft) absentForLeft absentForRight (by
      intro valuation solvedEnsured
      exact ⟨solvedEnsured _ (by simp), solvedEnsured _ (by simp)⟩)
  exact ⟨kinds', advance.weaken (fun _ solved => solved) fun equation member => List.mem_append_left _ member,
    paid.share leftUntouched.unbound rightUntouched.unbound different _ _⟩

end Planned

end RowInference
