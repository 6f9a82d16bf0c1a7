import RowInference.Proofs.Types.Reading
import RowInference.Unification

/-! # Unifying rows

A record is given by its fields and its tail. What unification plans for two records depends on these alone:
`TailPlan` lists the six ways in which tails are made to fit. A valuation that makes the common fields equal and
solves the planned equations makes the records equal.
-/

namespace RowInference

open Row (Sorted)

/-- The record with these fields and this tail. -/
def Ty.ofParts (fields : Row) : Option Ty → Ty
  | none => .record fields
  | some tail => .extension tail fields

namespace Ty

theorem rowParts_of_not_isRecord {type : Ty} (notRecord : type.isRecord = false) :
    type.rowParts = (.empty, some type) := by
  cases type <;> simp_all [isRecord, rowParts]

/-- The parts of an open record whose base is not a record. -/
theorem rowParts_extension {base : Ty} {fields : Row} (notRecord : base.isRecord = false)
    (sorted : fields.Sorted) : (extension base fields).rowParts = (fields, some base) := by
  rw [rowParts, rowParts_of_not_isRecord notRecord, Row.empty_extend sorted]

/-- A flat record is put together from its parts. -/
theorem ofParts_rowParts {type : Ty} (record : type.isRecord = true) (canonical : type.Canonical)
    (flat : type.Flat) : ofParts type.rowParts.1 type.rowParts.2 = type := by
  cases type <;> simp only [isRecord, reduceCtorEq] at record
  case record fields => rfl
  case extension base fields => rw [rowParts_extension flat.1 (Row.Canonical.sorted canonical.2)]; rfl

theorem read_ofParts_some (valuation : Valuation) (fields : Row) (tail : Ty) :
    (ofParts fields (some tail)).read valuation = (tail.read valuation).flatten (fields.read valuation) := rfl

theorem read_ofParts_none (valuation : Valuation) (fields : Row) :
    (ofParts fields none).read valuation = .record (fields.read valuation) := rfl

/-- Opening a row puts its fields under the fields that come on top. -/
theorem flatten_read_openRow (valuation : Valuation) {tail : Ty} {fields outer : Row}
    (canonical : tail.Canonical) (fieldsSorted : fields.Sorted) (outerSorted : outer.Sorted) :
    ((tail.openRow fields).read valuation).flatten outer
      = (tail.read valuation).flatten ((fields.read valuation).extend outer) := by
  rw [openRow]
  split
  · next empty =>
    obtain rfl := Row.isEmpty_iff.mp empty
    rw [Row.read, Row.mapVars, Row.empty_extend outerSorted]
  · exact flatten_flatten ((Row.sorted_mapVars _).mpr fieldsSorted) outerSorted
      (mapVars_canonical canonical valuation.canonical)

end Ty

/-! ## Common fields -/

/-- The valuation makes the fields equal that two rows have in common. -/
def Row.Agree (valuation : Valuation) (left right : Row) : Prop :=
  ∀ ⦃key : String⦄ ⦃type partner : Ty⦄, left.get? key = some type → right.get? key = some partner →
    type.read valuation = partner.read valuation

/-- The valuation makes the two sides equal. -/
def Equation.SolvedBy (equation : Equation) (valuation : Valuation) : Prop :=
  equation.expected.read valuation = equation.actual.read valuation

/-- A solution of the equations between common fields makes these fields equal. -/
theorem agree_of_fieldEquations {valuation : Valuation} {expected actual : Ty}
    (solved : ∀ equation ∈ fieldEquations expected actual, equation.SolvedBy valuation) :
    expected.rowParts.1.Agree valuation actual.rowParts.1 := by
  intro key type partner inLeft inRight
  exact solved ⟨type, partner⟩ (List.mem_map.mpr ⟨_, Row.mem_common_of_get? inLeft inRight, rfl⟩)

theorem fieldEquations_of_agree {valuation : Valuation} {expected actual : Ty}
    (sorted : expected.rowParts.1.Sorted) (agree : expected.rowParts.1.Agree valuation actual.rowParts.1) :
    ∀ equation ∈ fieldEquations expected actual, equation.SolvedBy valuation := by
  intro equation member
  obtain ⟨pair, inCommon, rfl⟩ := List.mem_map.mp member
  obtain ⟨key, inLeft, inRight⟩ := Row.mem_common inCommon
  exact agree (Row.get?_of_mem_toList sorted inLeft) inRight

/-- Rows with equal common fields become equal when each takes up what only the other one has. -/
theorem Row.Agree.read_merge {valuation : Valuation} {left right : Row} (leftSorted : left.Sorted)
    (rightSorted : right.Sorted) (agree : left.Agree valuation right) :
    ((right.without left).extend left).read valuation = ((left.without right).extend right).read valuation := by
  have sorted : ∀ {first second : Row}, first.Sorted → (((first.without second).extend second).read valuation).Sorted :=
    fun firstSorted => (Row.sorted_mapVars _).mpr ((firstSorted.without _).extend _)
  apply ext_get? (sorted rightSorted) (sorted leftSorted)
  intro key
  rw [read, read, get?_mapVars, get?_mapVars, get?_extend _ leftSorted, get?_extend _ rightSorted, get?_without,
    get?_without]
  cases inLeft : left.get? key with
  | none => cases inRight : right.get? key <;> simp [contains, inLeft, inRight]
  | some type =>
    cases inRight : right.get? key with
    | none => simp [contains, inRight]
    | some partner => simpa [Ty.read] using agree inLeft inRight

/-! ## Tails -/

/-- The equations planned for the tails of two records, given by their fields and tails. -/
inductive TailPlan (shared : Ty) (left right : Row) : Option Ty → Option Ty → List Equation → Prop where
  | closed (onlyLeft : left.without right = .empty) (onlyRight : right.without left = .empty) :
      TailPlan shared left right none none []
  | closedRight {tail : Ty} (onlyLeft : left.without right = .empty) :
      TailPlan shared left right (some tail) none [⟨tail, .record (right.without left)⟩]
  | closedLeft {tail : Ty} (onlyRight : right.without left = .empty) :
      TailPlan shared left right none (some tail) [⟨tail, .record (left.without right)⟩]
  | same {tail : Ty} (onlyLeft : left.without right = .empty) (onlyRight : right.without left = .empty) :
      TailPlan shared left right (some tail) (some tail) []
  | meet {leftTail rightTail : Ty} (different : leftTail ≠ rightTail)
      (onlyLeft : left.without right = .empty) (onlyRight : right.without left = .empty) :
      TailPlan shared left right (some leftTail) (some rightTail) [⟨leftTail, rightTail⟩]
  | shared {leftTail rightTail : Ty} (different : leftTail ≠ rightTail)
      (extra : ¬(left.without right = .empty ∧ right.without left = .empty)) :
      TailPlan shared left right (some leftTail) (some rightTail)
        [⟨leftTail, shared.openRow (right.without left)⟩, ⟨rightTail, shared.openRow (left.without right)⟩]

/-- The equations for the tails are those that are planned. -/
theorem tailEquations_eq_ok_iff {shared expected actual : Ty} {equations : List Equation} :
    tailEquations shared expected actual = .ok equations ↔
      TailPlan shared expected.rowParts.1 actual.rowParts.1 expected.rowParts.2 actual.rowParts.2 equations := by
  simp only [tailEquations, Bool.and_eq_true, Row.isEmpty_iff]
  generalize expected.rowParts = leftParts
  generalize actual.rowParts = rightParts
  obtain ⟨left, leftTail⟩ := leftParts
  obtain ⟨right, rightTail⟩ := rightParts
  constructor
  · intro planned
    cases leftTail <;> cases rightTail <;> simp only at planned
    · split at planned <;> cases planned
      next none => exact .closed none.1 none.2
    · split at planned <;> cases planned
      next none => exact .closedLeft none
    · split at planned <;> cases planned
      next none => exact .closedRight none
    · split at planned
      · next same =>
        split at planned <;> cases planned
        next none => exact same ▸ .same none.1 none.2
      · next different =>
        split at planned <;> cases planned
        · next none => exact .meet different none.1 none.2
        · next extra => exact .shared different extra
  · intro plan
    cases plan <;> simp_all

/-- Only a plan with a shared tail issues a variable. -/
theorem needsSharedTail_iff {expected actual : Ty} :
    needsSharedTail expected actual = true ↔
      ∃ leftTail rightTail, expected.rowParts.2 = some leftTail ∧ actual.rowParts.2 = some rightTail ∧
        leftTail ≠ rightTail ∧ ¬(expected.rowParts.1.without actual.rowParts.1 = .empty ∧
          actual.rowParts.1.without expected.rowParts.1 = .empty) := by
  rw [needsSharedTail]
  generalize expected.rowParts = leftParts
  generalize actual.rowParts = rightParts
  obtain ⟨left, leftTail⟩ := leftParts
  obtain ⟨right, rightTail⟩ := rightParts
  cases leftTail with
  | none => simp
  | some leftTail =>
    cases rightTail with
    | none => simp
    | some rightTail =>
      simp only [Bool.and_eq_true, decide_eq_true_eq, Bool.not_eq_true',
        ← Bool.not_eq_true, Row.isEmpty_iff, Option.some.injEq, not_and_or]
      exact ⟨fun h => ⟨_, _, rfl, rfl, h⟩, fun ⟨_, _, rfl, rfl, h⟩ => h⟩

/-- Equal common fields and fitting tails make records equal. -/
theorem TailPlan.read_eq {valuation : Valuation} {shared : Ty} {left right : Row} {leftTail rightTail : Option Ty}
    {equations : List Equation} (plan : TailPlan shared left right leftTail rightTail equations)
    (sharedCanonical : shared.Canonical) (leftSorted : left.Sorted) (rightSorted : right.Sorted)
    (agree : left.Agree valuation right) (solved : ∀ equation ∈ equations, equation.SolvedBy valuation) :
    (Ty.ofParts left leftTail).read valuation = (Ty.ofParts right rightTail).read valuation := by
  have merge := agree.read_merge leftSorted rightSorted
  have sameFields : left.without right = .empty → right.without left = .empty →
      left.read valuation = right.read valuation := by
    intro onlyLeft onlyRight
    rwa [onlyLeft, onlyRight, Row.empty_extend leftSorted, Row.empty_extend rightSorted] at merge
  cases plan with
  | closed onlyLeft onlyRight =>
    rw [Ty.read_ofParts_none, Ty.read_ofParts_none, sameFields onlyLeft onlyRight]
  | closedRight onlyLeft =>
    have tail := solved _ (List.mem_singleton_self _)
    rw [onlyLeft, Row.empty_extend rightSorted, Row.read, Row.mapVars_extend] at merge
    rw [Ty.read_ofParts_some, Ty.read_ofParts_none, tail, ← merge]
    rfl
  | closedLeft onlyRight =>
    have tail := solved _ (List.mem_singleton_self _)
    rw [onlyRight, Row.empty_extend leftSorted, Row.read, Row.read, Row.mapVars_extend] at merge
    rw [Ty.read_ofParts_some, Ty.read_ofParts_none, tail, Row.read, merge]
    rfl
  | same onlyLeft onlyRight =>
    rw [Ty.read_ofParts_some, Ty.read_ofParts_some, sameFields onlyLeft onlyRight]
  | meet different onlyLeft onlyRight =>
    have tails := solved _ (List.mem_singleton_self _)
    rw [Ty.read_ofParts_some, Ty.read_ofParts_some, sameFields onlyLeft onlyRight, tails]
  | shared different extra =>
    have ofLeft := solved _ (List.mem_cons_self ..)
    have ofRight := solved _ (List.mem_cons_of_mem _ (List.mem_singleton_self _))
    have readSorted : ∀ {row : Row}, row.Sorted → (row.read valuation).Sorted := (Row.sorted_mapVars _).mpr
    simp only [Row.read, Row.mapVars_extend] at merge
    rw [Ty.read_ofParts_some, Ty.read_ofParts_some, ofLeft, ofRight,
      Ty.flatten_read_openRow valuation sharedCanonical (rightSorted.without _) (readSorted leftSorted),
      Ty.flatten_read_openRow valuation sharedCanonical (leftSorted.without _) (readSorted rightSorted)]
    simp only [Row.read, merge]

end RowInference
