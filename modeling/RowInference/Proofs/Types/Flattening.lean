import RowInference.Proofs.Types.Reading
import RowInference.Unification

/-! # Taking records apart

Putting fields on top of a type can be undone if the type has none of these fields, so that what stands below the
fields of a record is determined by the record. Two records that are equal, with different fields split off, have a
common part below both.
-/

namespace RowInference

/-- The fields that a type shows. -/
def Ty.row : Ty → Row
  | .record fields => fields
  | .extension _ fields => fields
  | _ => .empty

/-- The type is an extension without fields. -/
def Ty.Bare (type : Ty) : Prop := ∃ base, type = .extension base .empty

/-- What stands below the fields of the type, if it has any, is not a record. -/
def Ty.Level : Ty → Prop
  | .extension base _ => base.isRecord = false
  | _ => True

/-- No field name is in both rows. -/
def Row.Disjoint (row other : Row) : Prop := ∀ key, other.contains key = true → row.contains key = false

/-- Put fields on top of a type; without fields the type itself. -/
def Ty.overlay (base : Ty) (fields : Row) : Ty := if fields.isEmpty then base else base.flatten fields

namespace Row

theorem get?_eq_none_iff {row : Row} {key : String} : row.get? key = none ↔ row.contains key = false := by
  rw [contains, Option.isSome_eq_false_iff, Option.isNone_iff_eq_none]

theorem exists_contains {row : Row} (nonempty : row ≠ .empty) : ∃ key, row.contains key = true := by
  cases row with
  | empty => exact absurd rfl nonempty
  | field name type rest => exact ⟨name, by simp [contains, get?]⟩

theorem contains_of_mem_toList {row : Row} {entry : String × Ty} (member : entry ∈ row.toList) :
    row.contains entry.1 = true := by
  induction row using Row.induction with
  | empty => cases member
  | field name type rest ih =>
    by_cases same : entry.1 = name
    · simp [contains, get?, same]
    · rcases List.mem_cons.mp member with rfl | later
      · exact absurd rfl same
      · simpa [contains, get?, same] using ih later

theorem disjoint_iff {row other : Row} :
    row.Disjoint other ↔ ∀ entry ∈ other.toList, row.contains entry.1 = false := by
  constructor
  · exact fun disjoint entry member => disjoint entry.1 (contains_of_mem_toList member)
  · intro each key present
    obtain ⟨type, found⟩ := Option.isSome_iff_exists.mp present
    exact each _ (mem_toList_of_get? found)

instance (row other : Row) : Decidable (row.Disjoint other) := decidable_of_iff' _ disjoint_iff

theorem contains_extend (row other : Row) (key : String) :
    (row.extend other).contains key = (other.contains key || row.contains key) := by
  induction other using Row.induction generalizing row with
  | empty => rfl
  | field name type rest ih =>
    rw [extend, ih]
    by_cases same : key = name <;> simp [contains, get?, same]

theorem contains_without (row other : Row) (key : String) :
    (row.without other).contains key = (!other.contains key && row.contains key) := by
  rw [contains, get?_without]
  cases other.contains key <;> rfl

/-- Disjoint rows stay disjoint, since replacing variables keeps the names of fields. -/
theorem Disjoint.mapVars {row other : Row} (disjoint : row.Disjoint other) (replace : TypeVar → Ty) :
    (row.mapVars replace).Disjoint (other.mapVars replace) := by
  intro key present
  rw [contains_mapVars] at present ⊢
  exact disjoint key present

theorem without_disjoint (row other : Row) : (row.without other).Disjoint other := by
  intro key present
  rw [contains_without, present]
  rfl

/-- What stands below disjoint fields is what remains without them. -/
theorem extend_without {row other : Row} (sorted : row.Sorted) (otherSorted : other.Sorted)
    (disjoint : row.Disjoint other) : (row.extend other).without other = row := by
  apply ext_get? ((sorted.extend _).without _) sorted
  intro key
  rw [get?_without, get?_extend _ otherSorted]
  split
  · next present => exact (get?_eq_none_iff.mpr (disjoint key present)).symm
  · next absent =>
    rw [get?_eq_none_iff.mpr (by simpa using absent)]
    rfl

/-- A row is what remains without some of its fields, with these on top. -/
theorem without_extend {row other : Row} (sorted : row.Sorted) (otherSorted : other.Sorted)
    (inside : ∀ key type, other.get? key = some type → row.get? key = some type) :
    (row.without other).extend other = row := by
  apply ext_get? ((sorted.without _).extend _) sorted
  intro key
  rw [get?_extend _ otherSorted, get?_without]
  cases inOther : other.get? key with
  | none => simp [contains, inOther]
  | some type => simpa using (inside key type inOther).symm

end Row

namespace Ty

/-- Flattening shows the fields of the base and those on top. -/
theorem row_flatten {base : Ty} {fields : Row} (sorted : fields.Sorted) :
    (base.flatten fields).row = base.row.extend fields := by
  cases base
  case record | extension => rfl
  all_goals exact (Row.empty_extend sorted).symm

theorem row_sorted {type : Ty} (canonical : type.Canonical) : type.row.Sorted := by
  cases type
  case record fields => exact Row.Canonical.sorted canonical
  case extension base fields => exact Row.Canonical.sorted canonical.2
  all_goals trivial

/-- What stands below fields of a closed record. -/
theorem eq_record_of_flatten {base : Ty} {fields whole : Row} (canonical : base.Canonical) (sorted : fields.Sorted)
    (disjoint : base.row.Disjoint fields) (same : base.flatten fields = .record whole) :
    base = .record (whole.without fields) := by
  cases base <;> simp only [flatten, record.injEq, reduceCtorEq] at same
  case record inner => rw [← same, Row.extend_without (Row.Canonical.sorted canonical) sorted disjoint]

/-- Fields put on a type in two steps are put there in one. -/
theorem flatten_overlay {base : Ty} {inner outer : Row} (canonical : base.Canonical) (innerSorted : inner.Sorted)
    (outerSorted : outer.Sorted) : (base.overlay inner).flatten outer = base.flatten (inner.extend outer) := by
  rw [overlay]
  split
  · next empty =>
    obtain rfl := Row.isEmpty_iff.mp empty
    rw [Row.empty_extend outerSorted]
  · exact flatten_flatten innerSorted outerSorted canonical

theorem row_overlay {base : Ty} {fields : Row} (sorted : fields.Sorted) :
    (base.overlay fields).row = base.row.extend fields := by
  rw [overlay]
  split
  · next empty =>
    obtain rfl := Row.isEmpty_iff.mp empty
    rfl
  · exact row_flatten sorted

theorem overlay_notBare {base : Ty} {fields : Row} (sorted : fields.Sorted) (notBare : ¬base.Bare) :
    ¬(base.overlay fields).Bare := by
  rw [overlay]
  split
  · exact notBare
  · next nonempty =>
    rintro ⟨bottom, same⟩
    have rows := congrArg row same
    rw [row_flatten sorted] at rows
    have none : fields = .empty := by
      have emptySorted : Row.empty.Sorted := trivial
      apply Row.ext_get? sorted emptySorted
      intro key
      have look := congrArg (Row.get? key) rows
      rw [Row.get?_extend _ sorted] at look
      exact (Option.or_eq_none_iff.mp (look.trans (by rfl))).1
    exact nonempty (Row.isEmpty_iff.mpr none)

/-- What remains of a type without some of its fields. -/
def strip (fields : Row) : Ty → Ty
  | record inner => record (inner.without fields)
  | extension base inner => base.openRow (inner.without fields)
  | type => type

theorem strip_canonical {fields : Row} {type : Ty} (canonical : type.Canonical) : (type.strip fields).Canonical := by
  cases type
  case record inner => exact Row.Canonical.without canonical _
  case extension base inner =>
    rw [strip, openRow]
    split
    · exact canonical.1
    · exact ⟨canonical.1, canonical.2.without _⟩
  all_goals trivial

theorem strip_flat {fields : Row} {type : Ty} (flat : type.Flat) : (type.strip fields).Flat := by
  cases type
  case record inner => exact Row.flat_iff.mpr ((Row.flat_iff.mp flat).without _)
  case extension base inner =>
    rw [strip, openRow]
    split
    · exact flat.2.1
    · exact ⟨flat.1, flat.2.1, Row.flat_iff.mpr ((Row.flat_iff.mp flat.2.2).without _)⟩
  all_goals trivial

theorem Flat.level {type : Ty} (flat : type.Flat) : type.Level := by
  cases type
  case extension base fields => exact flat.1
  all_goals trivial

theorem row_of_not_isRecord {type : Ty} (notRecord : type.isRecord = false) : type.row = .empty := by
  cases type <;> simp_all [isRecord, row]

/-- A stripped type shows the fields that are left. -/
theorem row_strip {fields : Row} {type : Ty} (level : type.Level) :
    (type.strip fields).row = type.row.without fields := by
  cases type
  case record inner => rfl
  case extension base inner =>
    rw [strip, openRow]
    split
    · next empty => rw [row_of_not_isRecord level]; exact (Row.isEmpty_iff.mp empty).symm
    · rfl
  all_goals rfl

theorem strip_notBare {fields : Row} {type : Ty} (level : type.Level) : ¬(type.strip fields).Bare := by
  rintro ⟨bottom, same⟩
  cases type <;> simp only [strip, reduceCtorEq] at same
  case extension base inner =>
    rw [openRow] at same
    split at same
    · rw [same] at level
      cases level
    · next nonempty =>
      simp only [extension.injEq] at same
      rw [same.2] at nonempty
      exact nonempty rfl

/-- Fields that were put on top can be taken off. -/
theorem strip_flatten {fields : Row} {type : Ty} (sorted : fields.Sorted) (rowSorted : type.row.Sorted)
    (disjoint : type.row.Disjoint fields) (notBare : ¬type.Bare) : (type.flatten fields).strip fields = type := by
  have removed := Row.extend_without rowSorted sorted disjoint
  have none : fields.without fields = .empty := by
    have emptyDisjoint : Row.empty.Disjoint fields := fun _ _ => rfl
    have emptySorted : Row.empty.Sorted := trivial
    have := Row.extend_without emptySorted sorted emptyDisjoint
    rwa [Row.empty_extend sorted] at this
  cases type
  case record inner => exact congrArg record removed
  case extension base inner =>
    change base.openRow ((inner.extend fields).without fields) = _
    rw [show (inner.extend fields).without fields = inner from removed, openRow, if_neg]
    intro isEmpty
    exact notBare ⟨base, by rw [Row.isEmpty_iff.mp isEmpty]⟩
  all_goals simp only [flatten, strip, none]; rfl

/-- Types with the same fields on top are equal. -/
theorem flatten_cancel {left right : Ty} {fields : Row} (sorted : fields.Sorted) (leftSorted : left.row.Sorted)
    (rightSorted : right.row.Sorted) (leftDisjoint : left.row.Disjoint fields)
    (rightDisjoint : right.row.Disjoint fields) (leftNotBare : ¬left.Bare) (rightNotBare : ¬right.Bare)
    (same : left.flatten fields = right.flatten fields) : left = right := by
  rw [← strip_flatten sorted leftSorted leftDisjoint leftNotBare, same,
    strip_flatten sorted rightSorted rightDisjoint rightNotBare]

/-- Fields that were split off can be put back. -/
theorem overlay_strip {fields : Row} {type : Ty} (sorted : fields.Sorted) (canonical : type.Canonical)
    (level : type.Level) (notBare : ¬type.Bare)
    (inside : ∀ key partner, fields.get? key = some partner → type.row.get? key = some partner) :
    (type.strip fields).overlay fields = type := by
  have restored := Row.without_extend (row_sorted canonical) sorted inside
  have emptyRow : ∀ row : Row, row.without .empty = row := by
    intro row
    induction row using Row.induction with
    | empty => rfl
    | field name type rest ih => simp [Row.without, Row.contains, Row.get?, ih]
  rw [overlay]
  split
  · next empty =>
    obtain rfl := Row.isEmpty_iff.mp empty
    cases type
    case record inner => rw [strip, emptyRow]
    case extension base inner =>
      rw [strip, emptyRow, openRow, if_neg]
      intro isEmpty
      exact notBare ⟨base, by rw [Row.isEmpty_iff.mp isEmpty]⟩
    all_goals rfl
  · next nonempty =>
    have notAll : type.row ≠ .empty := by
      intro none
      apply nonempty
      rw [none] at restored
      exact Row.isEmpty_iff.mpr ((Row.empty_extend sorted).symm.trans restored)
    cases type <;> simp only [row, ne_eq, not_true_eq_false] at notAll
    case record inner => exact congrArg record restored
    case extension base inner =>
      rw [strip, openRow]
      split
      · next empty =>
        rw [row, Row.isEmpty_iff.mp empty, Row.empty_extend sorted] at restored
        rw [flatten_of_not_isRecord _ level, restored]
      · exact congrArg (extension base) restored

/-- A record with some of its fields split off and put back. -/
theorem flatten_strip {fields : Row} {type : Ty} (isRecord : type.isRecord = true) (sorted : fields.Sorted)
    (canonical : type.Canonical) (level : type.Level) (notBare : ¬type.Bare)
    (inside : ∀ key partner, fields.get? key = some partner → type.row.get? key = some partner) :
    (type.strip fields).flatten fields = type := by
  have restored := overlay_strip sorted canonical level notBare inside
  rw [overlay] at restored
  split at restored
  · next empty =>
    obtain rfl := Row.isEmpty_iff.mp empty
    rw [restored]
    cases type
    case record | extension => rfl
    all_goals cases isRecord
  · exact restored

/-- Only the names of the fields that are split off matter. -/
theorem strip_mapVars (replace : TypeVar → Ty) (fields : Row) (type : Ty) :
    type.strip (fields.mapVars replace) = type.strip fields := by
  have rows : ∀ row : Row, row.without (fields.mapVars replace) = row.without fields := by
    intro row
    induction row using Row.induction with
    | empty => rfl
    | field name type rest ih => simp only [Row.without, Row.contains_mapVars, ih]
  cases type <;> simp only [strip, rows]

/-- Equal records with different fields split off have a common part below both. -/
theorem common_part {left right : Ty} {leftFields rightFields : Row} (leftSorted : leftFields.Sorted)
    (rightSorted : rightFields.Sorted) (leftCanonical : left.Canonical) (rightCanonical : right.Canonical)
    (leftLevel : left.Level) (leftDisjoint : left.row.Disjoint leftFields)
    (rightDisjoint : right.row.Disjoint rightFields) (leftNotBare : ¬left.Bare) (rightNotBare : ¬right.Bare)
    (same : left.flatten leftFields = right.flatten rightFields)
    (merged : (rightFields.without leftFields).extend leftFields
      = (leftFields.without rightFields).extend rightFields) :
    (left.strip (rightFields.without leftFields)).row.Disjoint ((rightFields.without leftFields).extend leftFields) ∧
      left = (left.strip (rightFields.without leftFields)).overlay (rightFields.without leftFields) ∧
      right = (left.strip (rightFields.without leftFields)).overlay (leftFields.without rightFields) := by
  have onlyRightSorted := rightSorted.without leftFields
  have onlyLeftSorted := leftSorted.without rightFields
  have rows := congrArg row same
  rw [row_flatten leftSorted, row_flatten rightSorted] at rows
  -- A field that only the right record lists must come from below the fields of the left one.
  have inside : ∀ key partner, (rightFields.without leftFields).get? key = some partner →
      left.row.get? key = some partner := by
    intro key partner found
    have look := congrArg (Row.get? key) rows
    rw [Row.get?_extend _ leftSorted, Row.get?_extend _ rightSorted] at look
    rw [Row.get?_without] at found
    split at found
    · cases found
    · next absent =>
      rw [Row.get?_eq_none_iff.mpr (by simpa using absent), found] at look
      simpa using look
  have restored := overlay_strip onlyRightSorted leftCanonical leftLevel leftNotBare inside
  have commonCanonical : (left.strip (rightFields.without leftFields)).Canonical := strip_canonical leftCanonical
  have commonNotBare : ¬(left.strip (rightFields.without leftFields)).Bare := strip_notBare leftLevel
  have commonDisjoint : (left.strip (rightFields.without leftFields)).row.Disjoint
      ((rightFields.without leftFields).extend leftFields) := by
    intro key present
    rw [row_strip leftLevel, Row.contains_without]
    rw [Row.contains_extend, Bool.or_eq_true] at present
    rcases present with inLeft | inRight
    · rw [leftDisjoint key inLeft, Bool.and_false]
    · rw [inRight]; rfl
  refine ⟨commonDisjoint, restored.symm, ?_⟩
  have overlaySorted : ((left.strip (rightFields.without leftFields)).overlay
      (leftFields.without rightFields)).row.Sorted := by
    rw [row_overlay onlyLeftSorted]
    exact (row_sorted commonCanonical).extend _
  -- Under the fields of the right record both sides are equal, and neither has one of these fields itself.
  apply flatten_cancel rightSorted (row_sorted rightCanonical) overlaySorted rightDisjoint ?_ rightNotBare
    (overlay_notBare onlyLeftSorted commonNotBare)
  · rw [← same, flatten_overlay commonCanonical onlyLeftSorted rightSorted, ← merged,
      ← flatten_overlay commonCanonical onlyRightSorted leftSorted, restored]
  · intro key present
    rw [row_overlay onlyLeftSorted, Row.contains_extend, Row.without_disjoint _ _ key present,
      Bool.false_or]
    apply commonDisjoint
    rw [merged, Row.contains_extend, present, Bool.true_or]

end Ty

end RowInference
