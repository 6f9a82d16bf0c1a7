import RowInference.Proofs.Types.Admissible
import RowInference.Proofs.Types.Extensions

/-! # Fields on top of variables

A valuation puts the fields of an open record on top of the value of the variable below them. No field is lost if the
value is a variable or a record that has none of these fields. A type in which this is so for every open record reads
larger than the value of any variable in it, and it stays so when variables are replaced by types that read the same.
-/

namespace RowInference

/-- The type is a variable, a record, or an open record with a variable below at least one field. -/
def Ty.RowLike : Ty → Prop
  | .var _ | .record _ => True
  | .extension base fields => (∃ v, base = .var v) ∧ fields ≠ .empty
  | _ => False

instance (type : Ty) : Decidable (∃ v, type = .var v) :=
  match type with
  | .var v => .isTrue ⟨v, rfl⟩
  | .unit | .bool | .char | .string | .int | .float | .tuple .. | .triple .. | .list _ | .function .. | .record _
  | .extension .. => .isFalse nofun

instance (type : Ty) : Decidable type.RowLike :=
  match type with
  | .var _ | .record _ => .isTrue trivial
  | .extension base fields => inferInstanceAs (Decidable ((∃ v, base = .var v) ∧ fields ≠ .empty))
  | .unit | .bool | .char | .string | .int | .float | .tuple .. | .triple .. | .list _ | .function .. => .isFalse id

/-- The type can stand below these fields. -/
structure Ty.TailFor (fields : Row) (type : Ty) : Prop where
  rowLike : type.RowLike
  disjoint : type.row.Disjoint fields

instance (fields : Row) (type : Ty) : Decidable (type.TailFor fields) :=
  decidable_of_iff (type.RowLike ∧ type.row.Disjoint fields) ⟨fun ⟨rowLike, disjoint⟩ => ⟨rowLike, disjoint⟩,
    fun isTail => ⟨isTail.rowLike, isTail.disjoint⟩⟩

/-- The open record with this base and these fields has a variable below at least one field, and the value of the
variable can stand there. -/
def Valuation.Supports (valuation : Valuation) (part : Ty × Row) : Prop :=
  ∃ v, part.1 = .var v ∧ part.2 ≠ .empty ∧ (valuation.value v).TailFor part.2

/-- The valuation supports every open record in the type. -/
def Ty.Stacked (valuation : Valuation) (type : Ty) : Prop := ∀ part ∈ type.extensions, valuation.Supports part

def Row.Stacked (valuation : Valuation) (row : Row) : Prop := ∀ part ∈ row.extensions, valuation.Supports part

namespace Row

variable {valuation : Valuation} {row other : Row}

/-- A row is stacked if its types are. -/
theorem stacked_iff : row.Stacked valuation ↔ row.All (Ty.Stacked valuation) := by
  constructor
  · intro stacked entry member part inEntry
    exact stacked part (mem_extensions.mpr ⟨entry, member, inEntry⟩)
  · intro all part inRow
    obtain ⟨entry, member, inEntry⟩ := mem_extensions.mp inRow
    exact all entry member part inEntry

theorem Stacked.extend (stacked : row.Stacked valuation) (others : other.Stacked valuation) :
    (row.extend other).Stacked valuation :=
  stacked_iff.mpr ((stacked_iff.mp stacked).extend (stacked_iff.mp others))

theorem Stacked.without (stacked : row.Stacked valuation) (other : Row) : (row.without other).Stacked valuation :=
  stacked_iff.mpr ((stacked_iff.mp stacked).without other)

/-! ## Sizes -/

theorem size_lt_insert {row : Row} {key : String} (absent : row.contains key = false) (value : Ty) :
    row.size < (row.insert key value).size := by
  induction row using Row.induction with
  | empty => simp only [insert, size]; omega
  | field name type rest ih =>
    have different : key ≠ name := by
      rintro rfl
      simp [contains, get?] at absent
    have absent' : rest.contains key = false := by simpa [contains, get?, different] using absent
    have := ih absent'
    rw [insert]
    split
    · simp only [size]; omega
    · next same => exact absurd (Std.LawfulEqCmp.compare_eq_iff_eq.mp same) different
    · simp only [size]; omega

/-- Each of the fields on top adds to the size. -/
theorem size_add_length_le_extend {row other : Row} (sorted : other.Sorted) (disjoint : row.Disjoint other) :
    row.size + other.toList.length ≤ (row.extend other).size := by
  induction other using Row.induction generalizing row with
  | empty => exact Nat.le_refl _
  | field name type rest ih =>
    have absent : row.contains name = false := disjoint name (by simp [contains, get?])
    have others : (row.insert name type).Disjoint rest := by
      intro key present
      obtain ⟨partner, found⟩ := Option.isSome_iff_exists.mp present
      have different : name ≠ key := name_ne_of_lt (sorted.2 _ (mem_toList_of_get? found))
      have old : row.contains key = false := disjoint key (by simp [contains, get?, different.symm, found])
      simpa [contains, different.symm] using old
    have := size_lt_insert absent type
    have := ih sorted.1 others
    simp only [toList, List.length_cons, extend]
    omega

/-- Further fields make a row larger. -/
theorem size_lt_extend {row other : Row} (sorted : other.Sorted) (disjoint : row.Disjoint other)
    (nonempty : other ≠ .empty) : row.size < (row.extend other).size := by
  have counted := size_add_length_le_extend sorted disjoint
  cases other with
  | empty => exact absurd rfl nonempty
  | field name type rest =>
    rw [toList, List.length_cons] at counted
    omega

end Row

namespace Ty

variable {valuation : Valuation}

/-- Fields on top make a type larger. -/
theorem size_lt_flatten {base : Ty} {fields : Row} (sorted : fields.Sorted) (disjoint : base.row.Disjoint fields)
    (nonempty : fields ≠ .empty) : base.size < (base.flatten fields).size := by
  cases base
  case record inner =>
    have := Row.size_lt_extend sorted disjoint nonempty
    simp only [flatten, size, row] at this ⊢
    omega
  case extension bottom inner =>
    have := Row.size_lt_extend sorted disjoint nonempty
    simp only [flatten, size, row] at this ⊢
    omega
  all_goals simp only [flatten, size]; omega

theorem Canonical.part {type part : Ty} (canonical : type.Canonical) (member : part ∈ type.parts) : part.Canonical := by
  cases type with
  | record fields =>
    obtain ⟨entry, inFields, rfl⟩ := List.mem_map.mp member
    exact (Row.canonical_iff.mp canonical).2 entry inFields
  | extension base fields =>
    obtain ⟨entry, inFields, rfl⟩ := List.mem_map.mp member
    exact (Row.canonical_iff.mp canonical.2).2 entry inFields
  | _ => grind [parts, Ty.Canonical]

theorem Stacked.part {type part : Ty} (stacked : type.Stacked valuation) (member : part ∈ type.parts) :
    part.Stacked valuation := by
  intro extension inPart
  refine stacked extension ?_
  have ofRow : ∀ {fields : Row}, part ∈ fields.toList.map Prod.snd → extension ∈ fields.extensions := by
    intro fields inFields
    obtain ⟨entry, listed, rfl⟩ := List.mem_map.mp inFields
    exact Row.mem_extensions.mpr ⟨entry, listed, inPart⟩
  cases type with
  | record fields => exact ofRow member
  | extension base fields => exact List.mem_cons_of_mem _ (List.mem_append_right _ (ofRow member))
  | _ => grind [parts, Ty.extensions]

/-- A variable is the whole type, or its value is smaller than what the type reads. -/
theorem Stacked.size_value_lt {type : Ty} (stacked : type.Stacked valuation) (canonical : type.Canonical) {v : TypeVar}
    (occurs : v ∈ type.occurrences) :
    type = .var v ∨ (valuation.value v).size < (type.read valuation).size := by
  induction type using parts_induction with
  | step type ih =>
    rcases mem_occurrences_cases occurs with isVar | ⟨part, member, inPart⟩ | ⟨base, fields, rfl, inBase⟩
    · exact .inl isVar
    · have less := size_read_part_lt (row_sorted canonical) member valuation
      rcases ih part member (stacked.part member) (canonical.part member) inPart with rfl | smaller
      · exact .inr less
      · exact .inr (Nat.lt_trans smaller less)
    · obtain ⟨tail, rfl, nonempty, isTail⟩ := (List.forall_mem_cons.mp stacked).1
      obtain rfl := List.mem_singleton.mp inBase
      refine .inr (size_lt_flatten ((Row.sorted_mapVars _).mpr canonical.2.sorted) ?_ ?_)
      · intro key present
        rw [Row.contains_mapVars] at present
        exact isTail.disjoint key present
      · rwa [ne_eq, ← Row.isEmpty_iff, Row.isEmpty_mapVars, Row.isEmpty_iff]

/-! ## Values below fields -/

theorem stacked_var (v : TypeVar) : (var v).Stacked valuation := by
  intro part member
  cases member

/-- A stacked type is flat, since the bases in it are variables. -/
theorem Stacked.flat {type : Ty} (stacked : type.Stacked valuation) : type.Flat := by
  refine flat_of_extensions fun part member => ?_
  obtain ⟨v, isVar, _⟩ := stacked part member
  rw [isVar]
  rfl

/-- A regular type is stacked if the value of each base can stand below its fields. -/
theorem Regular.stacked {type : Ty} (regular : type.Regular)
    (tails : ∀ part ∈ type.extensions, ∀ v, part.1 = .var v → (valuation.value v).TailFor part.2) :
    type.Stacked valuation := by
  intro part member
  obtain ⟨⟨v, isVar⟩, nonempty⟩ := regular.extended part member
  exact ⟨v, isVar, nonempty, tails part member v isVar⟩

theorem RowLike.level {type : Ty} (rowLike : type.RowLike) : type.Level := by
  cases type
  case extension base fields =>
    obtain ⟨⟨v, rfl⟩, _⟩ := rowLike
    rfl
  all_goals trivial

theorem RowLike.notBare {type : Ty} (rowLike : type.RowLike) : ¬type.Bare := by
  rintro ⟨base, rfl⟩
  exact rowLike.2 rfl

/-- What can stand below fields is an admissible value of a tail. -/
theorem TailFor.admits {type : Ty} {fields : Row} (isTail : type.TailFor fields) : (Kind.tail fields).Admits type :=
  ⟨isTail.disjoint, isTail.rowLike.notBare⟩

theorem TailFor.mono {type : Ty} {fields fewer : Row} (isTail : type.TailFor fields)
    (included : ∀ key, fewer.contains key = true → fields.contains key = true) : type.TailFor fewer :=
  ⟨isTail.rowLike, fun key present => isTail.disjoint key (included key present)⟩

/-- What is left of a row is a row. -/
theorem RowLike.strip {type : Ty} (rowLike : type.RowLike) (fields : Row) : (type.strip fields).RowLike := by
  cases type
  case extension base inner =>
    obtain ⟨⟨v, rfl⟩, _⟩ := rowLike
    rw [Ty.strip, openRow]
    split
    · trivial
    · next nonempty => exact ⟨⟨v, rfl⟩, fun none => nonempty (Row.isEmpty_iff.mpr none)⟩
  all_goals exact rowLike

/-- Flattening shows the names of the base and of the fields. -/
theorem contains_row_flatten (base : Ty) (fields : Row) (key : String) :
    (base.flatten fields).row.contains key = (fields.contains key || base.row.contains key) := by
  cases base
  case record | extension => exact Row.contains_extend ..
  all_goals exact (Bool.or_false _).symm

/-- The names of the fields of a record are names of fields of its reading. -/
theorem contains_row_read {type : Ty} {key : String} (present : type.row.contains key = true) :
    (type.read valuation).row.contains key = true := by
  cases type
  case record fields => rwa [read, mapVars, row, Row.contains_mapVars]
  case extension base fields => 
    rw [read, mapVars, contains_row_flatten, Row.contains_mapVars, show fields.contains key = true from present]
    rfl
  all_goals cases present

/-- A type can stand below fields if its reading can. -/
theorem Stacked.tailFor_of_read {type : Ty} {fields : Row} (stacked : type.Stacked valuation)
    (isTail : (type.read valuation).TailFor fields) : type.TailFor fields := by
  constructor
  · cases type
    case var | record => trivial
    case extension base inner =>
      obtain ⟨⟨v, rfl, nonempty, _⟩, _⟩ := List.forall_mem_cons.mp stacked
      exact ⟨⟨v, rfl⟩, nonempty⟩
    all_goals exact isTail.rowLike
  · intro key present
    by_contra shown
    have inReading : (type.read valuation).row.contains key = true := contains_row_read (by simpa using shown)
    rw [isTail.disjoint key present] at inReading
    cases inReading

/-! ## Replacing variables -/

/-- Fields on top of a type that reads as a tail for them. -/
theorem Stacked.flatten {base : Ty} {fields : Row} (stacked : base.Stacked valuation)
    (fieldsStacked : fields.Stacked valuation) (nonempty : fields ≠ .empty)
    (isTail : (base.read valuation).TailFor fields) : (base.flatten fields).Stacked valuation := by
  have rowLike := (stacked.tailFor_of_read isTail).rowLike
  cases base <;> try exact rowLike.elim
  case var v => exact List.forall_mem_cons.mpr ⟨⟨v, rfl, nonempty, isTail⟩, fieldsStacked⟩
  case record inner => exact Row.Stacked.extend stacked fieldsStacked
  case extension bottom inner =>
    obtain ⟨⟨v, rfl, _, below⟩, others⟩ := List.forall_mem_cons.mp stacked
    have innerStacked : inner.Stacked valuation := (List.forall_mem_append.mp others).2
    refine List.forall_mem_cons.mpr ⟨⟨v, rfl, ?_, below.rowLike, ?_⟩, innerStacked.extend fieldsStacked⟩
    · intro none
      obtain ⟨key, present⟩ := Row.exists_contains nonempty
      have inBoth := Row.contains_extend inner fields key
      rw [show inner.extend fields = .empty from none, present] at inBoth
      cases inBoth
    · intro key present
      rw [Row.contains_extend, Bool.or_eq_true] at present
      rcases present with inFields | inInner
      · have absent := isTail.disjoint key inFields
        rw [read, mapVars, contains_row_flatten, Bool.or_eq_false_iff] at absent
        exact absent.2
      · exact below.disjoint key inInner

/-- Replacing variables by types with the same readings. -/
theorem Stacked.mapVars {replace : TypeVar → Ty} (same : ∀ v, (replace v).read valuation = valuation.value v)
    (values : ∀ v, (replace v).Stacked valuation) {type : Ty} (stacked : type.Stacked valuation) :
    (type.mapVars replace).Stacked valuation := by
  have ofRow : ∀ fields : Row, fields.Stacked valuation →
      (fields.All fun type => type.Stacked valuation → (type.mapVars replace).Stacked valuation) →
      (fields.mapVars replace).Stacked valuation := by
    intro fields fieldsStacked each
    refine Row.stacked_iff.mpr ((Row.all_mapVars _).mpr fun entry member => ?_)
    exact each entry member (Row.stacked_iff.mp fieldsStacked entry member)
  induction type using Ty.induction with
  | atom type basic =>
    rw [mapVars_of_isAtom basic]
    exact stacked
  | var v => exact values v
  | tuple first second ih ih' | function first second ih ih' =>
    obtain ⟨left, right⟩ := List.forall_mem_append.mp stacked
    exact List.forall_mem_append.mpr ⟨ih left, ih' right⟩
  | triple first second third ih ih' ih'' =>
    obtain ⟨left, others⟩ := List.forall_mem_append.mp stacked
    obtain ⟨middle, right⟩ := List.forall_mem_append.mp others
    exact List.forall_mem_append.mpr ⟨ih left, List.forall_mem_append.mpr ⟨ih' middle, ih'' right⟩⟩
  | list element ih => exact ih stacked
  | record fields ih => exact ofRow fields stacked ih
  | extension base fields ih ih' =>
    obtain ⟨⟨v, rfl, nonempty, isTail⟩, others⟩ := List.forall_mem_cons.mp stacked
    rw [Ty.mapVars, Ty.mapVars]
    refine (values v).flatten (ofRow fields (List.forall_mem_append.mp others).2 ih') ?_ ?_
    · rwa [ne_eq, ← Row.isEmpty_iff, Row.isEmpty_mapVars, Row.isEmpty_iff]
    · rw [same]
      exact isTail.mono fun key present => by rwa [Row.contains_mapVars] at present

/-- Only the values of the variables in the type matter. -/
theorem Stacked.congr {later : Valuation} {sig : Signature} {issued : Nat} {type : Ty}
    (stacked : type.Stacked valuation)
    (within : type.Within sig) (below : sig.Issued issued) (agrees : later.AgreesBelow issued valuation) :
    type.Stacked later := by
  intro part member
  obtain ⟨v, isVar, nonempty, isTail⟩ := stacked part member
  have inType := mem_occurrences_of_base member isVar
  have sameValue : later.value v = valuation.value v := agrees fun index same => below index (by
    rw [← same, within.known v inType]
    exact Option.some_ne_none _)
  exact ⟨v, isVar, nonempty, sameValue ▸ isTail⟩

end Ty

end RowInference
