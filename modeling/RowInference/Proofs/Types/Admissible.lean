import RowInference.Proofs.Types.Kinding

/-! # Admissible valuations

A valuation is admissible for a kinding when it could be the meaning of the variables: constraints are respected, and
nothing below the fields of a record repeats one of them. Inference learns by issuing variables and by binding them, and
a valuation can be continued accordingly: it keeps its values for the variables issued before.

A kinded type reads at least as large as any use of a variable in it. This is what rules out infinite types.
-/

namespace RowInference

variable {kinds : Kinding}

/-- The type may be the value of a variable of this kind. -/
def Kind.Admits : Kind → Ty → Prop
  | plain constraint, type => type.Meets constraint
  | tail fields, type => type.row.Disjoint fields ∧ ¬type.Bare

/-- The valuation follows the kinding; it depends on the identity of a variable alone. -/
structure Kinding.Admits (kinds : Kinding) (valuation : Valuation) : Prop where
  flat : valuation.Flat
  uniform : ∀ ⦃u w : TypeVar⦄, kinds u.id ≠ none → u.id = w.id → valuation.value u = valuation.value w
  values : ∀ ⦃id : VarId⦄ ⦃kind : Kind⦄, kinds id = some kind →
    kind.Admits (valuation.value ⟨id, kind.constraint⟩)

theorem Kind.admits_mapVars {kind : Kind} {replace : TypeVar → Ty} {type : Ty} :
    (kind.mapVars replace).Admits type ↔ kind.Admits type := by
  cases kind <;> simp [Kind.Admits, Kind.mapVars, Row.Disjoint]

/-- A valuation that follows the kinds follows those after a binding. -/
theorem Kinding.Admits.bind {valuation : Valuation} (admits : kinds.Admits valuation) (v : TypeVar) (value : Ty) :
    (kinds.bind v value).Admits valuation := by
  have of_bind : ∀ {id : VarId} {kind : Kind}, kinds.bind v value id = some kind →
      ∃ old, kinds id = some old ∧ old.mapVars (v.bind value) = kind := by
    intro id kind known
    rw [Kinding.bind] at known
    split at known
    · cases known
    · exact Option.map_eq_some_iff.mp known
  refine ⟨admits.flat, ?_, ?_⟩
  · intro u w known same
    obtain ⟨kind, isKind⟩ := Option.ne_none_iff_exists'.mp known
    obtain ⟨old, isOld, _⟩ := of_bind isKind
    exact admits.uniform (by rw [isOld]; exact Option.some_ne_none _) same
  · intro id kind isKind
    obtain ⟨old, isOld, rfl⟩ := of_bind isKind
    rw [Kind.constraint_mapVars, Kind.admits_mapVars]
    exact admits.values isOld

/-- The value of a tail has none of the fields on top of it. -/
theorem Kinding.Admits.tail {valuation : Valuation} (admits : kinds.Admits valuation) {id : VarId} {fields : Row}
    (isTail : kinds id = some (.tail fields)) :
    (valuation.value ⟨id, none⟩).row.Disjoint fields ∧ ¬(valuation.value ⟨id, none⟩).Bare :=
  admits.values isTail

/-! ## Continuing a valuation -/

namespace Valuation

/-- The valuations agree on all variables but those generated from an index on. -/
def AgreesBelow (issued : Nat) (later valuation : Valuation) : Prop :=
  ∀ ⦃v : TypeVar⦄, (∀ index, v.id = .generated index → index < issued) → later.value v = valuation.value v

theorem AgreesBelow.refl (issued : Nat) (valuation : Valuation) : valuation.AgreesBelow issued valuation :=
  fun _ _ => rfl

theorem AgreesBelow.trans {issued issued' : Nat} {first second third : Valuation} (le : issued ≤ issued')
    (earlier : second.AgreesBelow issued first) (later : third.AgreesBelow issued' second) :
    third.AgreesBelow issued first := by
  intro v below
  rw [later fun index same => Nat.lt_of_lt_of_le (below index same) le, earlier below]

/-- Give a variable another value. -/
def update (valuation : Valuation) (id : VarId) (type : Ty) (canonical : type.Canonical) : Valuation where
  value v := if v.id = id then type else valuation.value v
  canonical v := by
    split
    · exact canonical
    · exact valuation.canonical v

section Update

variable {valuation : Valuation} {id : VarId} {type : Ty} {canonical : type.Canonical}

theorem update_self (constraint : Option Constraint) :
    (valuation.update id type canonical).value ⟨id, constraint⟩ = type := if_pos rfl

theorem update_of_ne {v : TypeVar} (different : v.id ≠ id) :
    (valuation.update id type canonical).value v = valuation.value v := if_neg different

theorem Flat.update (allFlat : valuation.Flat) (flat : type.Flat) : (valuation.update id type canonical).Flat := by
  intro v
  by_cases same : v.id = id
  · simpa only [Valuation.update, if_pos same] using flat
  · rw [update_of_ne same]
    exact allFlat v

theorem update_agreesBelow {issued index : Nat} (le : issued ≤ index) :
    (valuation.update (.generated index) type canonical).AgreesBelow issued valuation := by
  intro v below
  apply update_of_ne
  intro same
  have := below index same
  omega

end Update

end Valuation

/-- Valuations that agree on what has been issued read a type alike. -/
theorem Ty.Within.read_eq {sig : Signature} {issued : Nat} {type : Ty} (within : type.Within sig)
    (below : sig.Issued issued) {later valuation : Valuation} (agrees : later.AgreesBelow issued valuation) :
    type.read later = type.read valuation := by
  refine mapVars_congr fun v inType => agrees fun index same => below index ?_
  rw [← same, within.known v inType]
  exact Option.some_ne_none _

/-- A new variable takes any value that its kind admits. -/
theorem Kinding.Admits.add {valuation : Valuation} (admits : kinds.Admits valuation) {id : VarId} {kind : Kind}
    {type : Ty} (canonical : type.Canonical) (flat : type.Flat) (admitted : kind.Admits type) :
    (kinds.add id kind).Admits (valuation.update id type canonical) := by
  refine ⟨admits.flat.update flat, ?_, ?_⟩
  · intro u w known same
    by_cases new : u.id = id
    · simp only [Valuation.update, if_pos new, if_pos (same.symm.trans new)]
    · rw [Kinding.add_of_ne _ new] at known
      rw [Valuation.update_of_ne new, Valuation.update_of_ne fun isNew => new (same.trans isNew)]
      exact admits.uniform known same
  · intro other otherKind isKind
    by_cases new : other = id
    · subst new
      rw [Kinding.add_self] at isKind
      cases isKind
      rwa [Valuation.update_self]
    · rw [Kinding.add_of_ne _ new] at isKind
      have different : (⟨other, otherKind.constraint⟩ : TypeVar).id ≠ id := new
      rw [Valuation.update_of_ne different]
      exact admits.values isKind

/-! ## Uses of a variable and their sizes -/

/-- The type as which a variable of this kind is used. -/
def Kind.use (id : VarId) : Kind → Ty
  | plain constraint => .var ⟨id, constraint⟩
  | tail fields => .extension (.var ⟨id, none⟩) fields

namespace Ty

theorem row_size_lt {type : Ty} (record : type.isRecord = true) : type.row.size < type.size := by
  cases type <;> simp only [isRecord, reduceCtorEq] at record
  case record fields => simp only [row, size]; omega
  case extension base fields => simp only [row, size]; omega

theorem isRecord_read {type : Ty} (record : type.isRecord = true) (valuation : Valuation) :
    (type.read valuation).isRecord = true := by
  cases type <;> simp only [isRecord, reduceCtorEq] at record
  case record fields => rfl
  case extension base fields => exact flatten_isRecord ..

/-- The fields of a record are fields of its reading. -/
theorem get?_row_read {type : Ty} (sorted : type.row.Sorted) {key : String} {field : Ty}
    (found : type.row.get? key = some field) (valuation : Valuation) (record : type.isRecord = true) :
    (type.read valuation).row.get? key = some (field.read valuation) := by
  cases type <;> simp only [isRecord, reduceCtorEq] at record
  case record fields =>
    change (fields.mapVars _).get? key = _
    rw [Row.get?_mapVars, show fields.get? key = some field from found]
    rfl
  case extension base fields =>
    have mappedSorted : (fields.mapVars valuation.value).Sorted := (Row.sorted_mapVars _).mpr sorted
    change ((base.mapVars _).flatten (fields.mapVars _)).row.get? key = _
    rw [row_flatten mappedSorted, Row.get?_extend _ mappedSorted, Row.get?_mapVars,
      show fields.get? key = some field from found]
    rfl

/-- A field reads smaller than its record. -/
theorem size_read_field_lt {type : Ty} (record : type.isRecord = true) (sorted : type.row.Sorted) {key : String}
    {field : Ty} (member : (key, field) ∈ type.row.toList) (valuation : Valuation) :
    (field.read valuation).size < (type.read valuation).size := by
  have found := get?_row_read sorted (Row.get?_of_mem_toList sorted member) valuation record
  exact Nat.lt_of_le_of_lt (Row.get?_size_le found) (row_size_lt (isRecord_read record valuation))

/-- The parts of a type, with the fields of a record but without what is below them. -/
def parts : Ty → List Ty
  | .tuple first second | .function first second => [first, second]
  | .triple first second third => [first, second, third]
  | .list element => [element]
  | .record fields | .extension _ fields => fields.toList.map Prod.snd
  | _ => []

/-- Induction over the parts of a type. -/
theorem parts_induction {holds : Ty → Prop} (step : ∀ type, (∀ part ∈ type.parts, holds part) → holds type)
    (type : Ty) : holds type := by
  induction type using Ty.induction with
  | atom type basic => exact step type (by cases type <;> simp_all [parts, isAtom])
  | record fields each | extension base fields _ each =>
    exact step _ (List.forall_mem_map.mpr fun entry member => each entry member)
  | _ => exact step _ (by simp [parts, *])

/-- A variable in a type is the type, or in a part of it, or below the fields of a record. -/
theorem mem_occurrences_cases {type : Ty} {v : TypeVar} (occurs : v ∈ type.occurrences) :
    type = .var v ∨ (∃ part ∈ type.parts, v ∈ part.occurrences) ∨
      ∃ base fields, type = .extension base fields ∧ v ∈ base.occurrences := by
  have ofRow : ∀ {fields : Row}, v ∈ fields.occurrences →
      ∃ part ∈ fields.toList.map Prod.snd, v ∈ part.occurrences := by
    intro fields inFields
    obtain ⟨entry, member, inType⟩ := Row.mem_occurrences.mp inFields
    exact ⟨entry.2, List.mem_map_of_mem member, inType⟩
  cases type with
  | var u => exact .inl (congrArg Ty.var (List.mem_singleton.mp occurs).symm)
  | record fields => exact .inr (.inl (ofRow occurs))
  | extension base fields =>
    rcases List.mem_append.mp occurs with inBase | inFields
    · exact .inr (.inr ⟨base, fields, rfl, inBase⟩)
    · exact .inr (.inl (ofRow inFields))
  | _ => simp_all [occurrences, parts]

/-- A part reads smaller than the type. -/
theorem size_read_part_lt {type part : Ty} (sorted : type.row.Sorted) (member : part ∈ type.parts)
    (valuation : Valuation) : (part.read valuation).size < (type.read valuation).size := by
  cases type with
  | record fields | extension base fields =>
    obtain ⟨entry, inFields, rfl⟩ := List.mem_map.mp member
    exact size_read_field_lt rfl sorted inFields valuation
  | _ => grind [parts, read, mapVars, size]

theorem Kinded.part {type part : Ty} (kinded : type.Kinded kinds) (member : part ∈ type.parts) : part.Kinded kinds := by
  cases type with
  | record fields =>
    obtain ⟨entry, inFields, rfl⟩ := List.mem_map.mp member
    exact Row.Kinded.all kinded entry inFields
  | extension base fields =>
    obtain ⟨entry, inFields, rfl⟩ := List.mem_map.mp member
    exact Row.Kinded.all kinded.2 entry inFields
  | _ => grind [parts, Ty.Kinded]

/-- A variable occurs in a kinded type as the type itself or in a smaller use. -/
theorem Kinded.size_use {type : Ty} (kinded : type.Kinded kinds) {id : VarId} {kind : Kind}
    (isKind : kinds id = some kind) {v : TypeVar} (occurs : v ∈ type.occurrences) (same : v.id = id)
    (valuation : Valuation) :
    type = kind.use id ∨ ((kind.use id).read valuation).size < (type.read valuation).size := by
  induction type using parts_induction with
  | step type ih =>
    rcases mem_occurrences_cases occurs with rfl | ⟨part, member, inPart⟩ | ⟨base, fields, rfl, inBase⟩
    · rw [Ty.Kinded, same, isKind] at kinded
      cases kinded
      exact .inl (by rw [Kind.use, ← same])
    · have less := size_read_part_lt (row_sorted kinded.within.canonical) member valuation
      rcases ih part member (kinded.part member) inPart with rfl | smaller
      · exact .inr less
      · exact .inr (Nat.lt_trans smaller less)
    · obtain ⟨⟨tailId, rfl, isTail⟩, _⟩ := kinded
      obtain rfl := List.mem_singleton.mp inBase
      obtain rfl : tailId = id := same
      rw [isKind] at isTail
      cases isTail
      exact .inl rfl

/-- A type that reads like a use of a variable, and is another one, does not contain the variable. -/
theorem Kinded.absent_of_read_eq {type : Ty} (kinded : type.Kinded kinds) {id : VarId} {kind : Kind}
    (isKind : kinds id = some kind) {valuation : Valuation}
    (same : (kind.use id).read valuation = type.read valuation) (different : type ≠ kind.use id) :
    ∀ v ∈ type.occurrences, v.id ≠ id := by
  intro v occurs sameId
  rcases kinded.size_use isKind occurs sameId valuation with equal | less
  · exact different equal
  · rw [same] at less
    exact Nat.lt_irrefl _ less

/-- A tail does not occur in the fields on top of it. -/
theorem Kinded.tail_absent {id : VarId} {fields : Row}
    (kinded : (extension (.var ⟨id, none⟩) fields).Kinded kinds) : ∀ v ∈ fields.occurrences, v.id ≠ id := by
  intro v inFields same
  obtain ⟨⟨tailId, base, isTail⟩, fieldsKinded⟩ := kinded
  cases base
  let identity : Valuation := ⟨.var, fun _ => trivial⟩
  obtain ⟨entry, member, inType⟩ := Row.mem_occurrences.mp inFields
  have record : (extension (.var ⟨id, none⟩) fields).isRecord = true := rfl
  have less := size_read_field_lt record fieldsKinded.sorted member identity
  rcases (fieldsKinded.all entry member).size_use isTail inType same identity with equal | larger
  · rw [equal] at less
    exact Nat.lt_irrefl _ less
  · exact Nat.lt_asymm less larger

end Ty

end RowInference
