import RowInference.Proofs.Types.Kinding

/-! # Open records inside types

Which open records stand in a type, at any depth, and which variables stand there as types of their own. In a regular
type all open records have a variable below their fields. Types that follow one kinding agree on them: only
unconstrained variables are extended, a variable is extended by the same fields everywhere, and it is not used as a
type.
-/

namespace RowInference

mutual

/-- The bases and the fields of all open records in a type. -/
def Ty.extensions : Ty → List (Ty × Row)
  | .tuple first second => first.extensions ++ second.extensions
  | .triple first second third => first.extensions ++ (second.extensions ++ third.extensions)
  | .list element => element.extensions
  | .function source target => source.extensions ++ target.extensions
  | .record fields => fields.extensions
  | .extension base fields => (base, fields) :: (base.extensions ++ fields.extensions)
  | _ => []

def Row.extensions : Row → List (Ty × Row)
  | .empty => []
  | .field _ type rest => type.extensions ++ rest.extensions

end

mutual

/-- The variables that stand in a type as types, not as bases of open records. -/
def Ty.plainVars : Ty → List TypeVar
  | .var v => [v]
  | .tuple first second => first.plainVars ++ second.plainVars
  | .triple first second third => first.plainVars ++ (second.plainVars ++ third.plainVars)
  | .list element => element.plainVars
  | .function source target => source.plainVars ++ target.plainVars
  | .record fields => fields.plainVars
  | .extension (.var _) fields => fields.plainVars
  | .extension base fields => base.plainVars ++ fields.plainVars
  | _ => []

def Row.plainVars : Row → List TypeVar
  | .empty => []
  | .field _ type rest => type.plainVars ++ rest.plainVars

end

namespace Row

theorem mem_extensions {row : Row} {extension : Ty × Row} :
    extension ∈ row.extensions ↔ ∃ entry ∈ row.toList, extension ∈ entry.2.extensions := by
  induction row using Row.induction with
  | empty => simp [extensions, toList]
  | field name type rest ih => simp [extensions, toList, ih]

theorem mem_plainVars {row : Row} {v : TypeVar} :
    v ∈ row.plainVars ↔ ∃ entry ∈ row.toList, v ∈ entry.2.plainVars := by
  induction row using Row.induction with
  | empty => simp [plainVars, toList]
  | field name type rest ih => simp [plainVars, toList, ih]

end Row

variable {kinds : Kinding}

namespace Ty

theorem extensions_of_isAtom {type : Ty} (basic : type.isAtom = true) : type.extensions = [] := by
  cases type <;> simp_all [isAtom, extensions]

theorem plainVars_of_isAtom {type : Ty} (basic : type.isAtom = true) : type.plainVars = [] := by
  cases type <;> simp_all [isAtom, plainVars]

/-- The variables of an open record in a type are variables of the type. -/
theorem occurrences_of_mem_extensions {type : Ty} {part : Ty × Row} (member : part ∈ type.extensions) {v : TypeVar}
    (inPart : v ∈ (Ty.extension part.1 part.2).occurrences) : v ∈ type.occurrences := by
  have ofRow : ∀ fields : Row, part ∈ fields.extensions →
      (fields.All fun type => part ∈ type.extensions → v ∈ type.occurrences) → v ∈ fields.occurrences := by
    intro fields inFields each
    obtain ⟨entry, inRow, inType⟩ := Row.mem_extensions.mp inFields
    exact Row.mem_occurrences.mpr ⟨entry, inRow, each entry inRow inType⟩
  induction type using Ty.induction with
  | atom type basic => simp [extensions_of_isAtom basic] at member
  | var u => simp [extensions] at member
  | tuple first second ih ih' | function first second ih ih' =>
    exact List.mem_append.mpr ((List.mem_append.mp member).imp ih ih')
  | triple first second third ih ih' ih'' =>
    exact List.mem_append.mpr ((List.mem_append.mp member).imp ih fun others =>
      List.mem_append.mpr ((List.mem_append.mp others).imp ih' ih''))
  | list element ih => exact ih member
  | record fields ih => exact ofRow fields member ih
  | extension base fields ih ih' =>
    rw [extensions, List.mem_cons] at member
    rcases member with rfl | inside
    · exact inPart
    · exact List.mem_append.mpr ((List.mem_append.mp inside).imp ih fun inFields => ofRow fields inFields ih')

/-- A variable that is the base of an open record occurs in the type. -/
theorem mem_occurrences_of_base {type : Ty} {part : Ty × Row} (member : part ∈ type.extensions) {v : TypeVar}
    (isVar : part.1 = .var v) : v ∈ type.occurrences := by
  refine occurrences_of_mem_extensions member ?_
  rw [isVar]
  exact List.mem_append_left _ (List.mem_singleton_self v)

/-- Every open record in a kinded type is kinded itself. -/
theorem Kinded.of_mem_extensions {type : Ty} (kinded : type.Kinded kinds) {part : Ty × Row}
    (member : part ∈ type.extensions) : (Ty.extension part.1 part.2).Kinded kinds := by
  have ofRow : ∀ fields : Row, fields.Kinded kinds → part ∈ fields.extensions →
      (fields.All fun type => type.Kinded kinds → part ∈ type.extensions → (Ty.extension part.1 part.2).Kinded kinds) →
      (Ty.extension part.1 part.2).Kinded kinds := by
    intro fields fieldsKinded inFields each
    obtain ⟨entry, inRow, inType⟩ := Row.mem_extensions.mp inFields
    exact each entry inRow (fieldsKinded.all entry inRow) inType
  induction type using Ty.induction with
  | atom type basic => simp [extensions_of_isAtom basic] at member
  | var v => simp [extensions] at member
  | tuple first second ih ih' => exact (List.mem_append.mp member).elim (ih kinded.1) (ih' kinded.2)
  | triple first second third ih ih' ih'' =>
    exact (List.mem_append.mp member).elim (ih kinded.1) fun others =>
      (List.mem_append.mp others).elim (ih' kinded.2.1) (ih'' kinded.2.2)
  | list element ih => exact ih kinded member
  | function source target ih ih' => exact (List.mem_append.mp member).elim (ih kinded.1) (ih' kinded.2)
  | record fields ih => exact ofRow fields kinded member ih
  | extension base fields ih ih' =>
    rw [extensions, List.mem_cons] at member
    rcases member with rfl | inside
    · exact kinded
    · obtain ⟨⟨id, rfl, _⟩, fieldsKinded⟩ := kinded
      exact ofRow fields fieldsKinded (by simpa [extensions] using inside) ih'

/-- A variable that stands in a kinded type as a type is plain. -/
theorem Kinded.of_mem_plainVars {type : Ty} (kinded : type.Kinded kinds) {v : TypeVar} (member : v ∈ type.plainVars) :
    kinds v.id = some (.plain v.constraint) := by
  have ofRow : ∀ fields : Row, fields.Kinded kinds → v ∈ fields.plainVars →
      (fields.All fun type => type.Kinded kinds → v ∈ type.plainVars → kinds v.id = some (.plain v.constraint)) →
      kinds v.id = some (.plain v.constraint) := by
    intro fields fieldsKinded inFields each
    obtain ⟨entry, inRow, inType⟩ := Row.mem_plainVars.mp inFields
    exact each entry inRow (fieldsKinded.all entry inRow) inType
  induction type using Ty.induction with
  | atom type basic => simp [plainVars_of_isAtom basic] at member
  | var u =>
    rw [plainVars, List.mem_singleton] at member
    rw [member]
    exact kinded
  | tuple first second ih ih' => exact (List.mem_append.mp member).elim (ih kinded.1) (ih' kinded.2)
  | triple first second third ih ih' ih'' =>
    exact (List.mem_append.mp member).elim (ih kinded.1) fun others =>
      (List.mem_append.mp others).elim (ih' kinded.2.1) (ih'' kinded.2.2)
  | list element ih => exact ih kinded member
  | function source target ih ih' => exact (List.mem_append.mp member).elim (ih kinded.1) (ih' kinded.2)
  | record fields ih => exact ofRow fields kinded member ih
  | extension base fields ih ih' =>
    obtain ⟨⟨id, rfl, _⟩, fieldsKinded⟩ := kinded
    exact ofRow fields fieldsKinded (by simpa [plainVars] using member) ih'

end Ty

/-! ## Regular types -/

/-- The type is well-formed, and every open record in it has a variable below at least one field. -/
structure Ty.Regular (type : Ty) : Prop where
  canonical : type.Canonical
  extended : ∀ part ∈ type.extensions, (∃ v, part.1 = .var v) ∧ part.2 ≠ .empty

/-- A type is flat if no open record in it has a record below. -/
theorem Ty.flat_of_extensions {type : Ty} (bases : ∀ part ∈ type.extensions, part.1.isRecord = false) : type.Flat := by
  have ofRow : ∀ fields : Row, (∀ part ∈ fields.extensions, part.1.isRecord = false) →
      (fields.All fun type => (∀ part ∈ type.extensions, part.1.isRecord = false) → type.Flat) → fields.Flat := by
    intro fields bases each
    refine Row.flat_iff.mpr fun entry member => each entry member fun part inEntry => ?_
    exact bases part (Row.mem_extensions.mpr ⟨entry, member, inEntry⟩)
  induction type using Ty.induction with
  | atom type basic => exact flat_of_isAtom basic
  | var v => trivial
  | tuple first second ih ih' | function first second ih ih' =>
    obtain ⟨left, right⟩ := List.forall_mem_append.mp bases
    exact ⟨ih left, ih' right⟩
  | triple first second third ih ih' ih'' =>
    obtain ⟨left, others⟩ := List.forall_mem_append.mp bases
    obtain ⟨middle, right⟩ := List.forall_mem_append.mp others
    exact ⟨ih left, ih' middle, ih'' right⟩
  | list element ih => exact ih bases
  | record fields ih => exact ofRow fields bases ih
  | extension base fields ih ih' =>
    obtain ⟨here, others⟩ := List.forall_mem_cons.mp bases
    obtain ⟨left, right⟩ := List.forall_mem_append.mp others
    exact ⟨here, ih left, ofRow fields right ih'⟩

namespace Ty.Regular

variable {type other : Ty}

/-- The bases in a regular type are variables, so the type is flat. -/
theorem flat (regular : type.Regular) : type.Flat := by
  refine flat_of_extensions fun part member => ?_
  obtain ⟨⟨v, isVar⟩, _⟩ := regular.extended part member
  rw [isVar]
  rfl

theorem notBare (regular : type.Regular) : ¬type.Bare := by
  rintro ⟨base, rfl⟩
  exact (regular.extended (base, .empty) (List.mem_cons_self ..)).2 rfl

theorem element (regular : (Ty.list type).Regular) : type.Regular := ⟨regular.canonical, regular.extended⟩

theorem source (regular : (Ty.function type other).Regular) : type.Regular :=
  ⟨regular.canonical.1, (List.forall_mem_append.mp regular.extended).1⟩

theorem target (regular : (Ty.function type other).Regular) : other.Regular :=
  ⟨regular.canonical.2, (List.forall_mem_append.mp regular.extended).2⟩

theorem function (source : type.Regular) (target : other.Regular) : (Ty.function type other).Regular :=
  ⟨⟨source.canonical, target.canonical⟩, List.forall_mem_append.mpr ⟨source.extended, target.extended⟩⟩

/-- A curried type of regular types is regular. -/
theorem curried {params : List Ty} (each : ∀ param ∈ params, param.Regular) (result : type.Regular) :
    (Ty.curried params type).Regular := by
  induction params with
  | nil => exact result
  | cons param rest ih =>
    obtain ⟨here, others⟩ := List.forall_mem_cons.mp each
    exact here.function (ih others)

end Ty.Regular

/-! ## Types together -/

/-- The types use rows in the same way: only unconstrained variables are extended, a variable that is extended does not
stand for a type anywhere, and it is extended by the same fields everywhere. -/
structure RowsAgree (types : List Ty) : Prop where
  bases : ∀ type ∈ types, ∀ part ∈ type.extensions, ∃ id, part.1 = .var ⟨id, none⟩
  apart : ∀ type ∈ types, ∀ part ∈ type.extensions, ∀ v, part.1 = .var v →
    ∀ other ∈ types, ∀ u ∈ other.plainVars, u.id ≠ v.id
  same : ∀ type ∈ types, ∀ part ∈ type.extensions, ∀ v, part.1 = .var v →
    ∀ other ∈ types, ∀ part' ∈ other.extensions, ∀ v', part'.1 = .var v' → v'.id = v.id → part' = part

/-- Types that follow one kinding use rows in the same way. -/
theorem RowsAgree.of_kinded {types : List Ty} (kinded : ∀ type ∈ types, type.Kinded kinds) : RowsAgree types := by
  have tail : ∀ type ∈ types, ∀ part ∈ type.extensions, ∃ id, part.1 = .var ⟨id, none⟩ ∧
      kinds id = some (.tail part.2) :=
        fun type inTypes part member => ((kinded type inTypes).of_mem_extensions member).1
  refine ⟨fun type inTypes part member => ?_, ?_, ?_⟩
  · obtain ⟨id, base, _⟩ := tail type inTypes part member
    exact ⟨id, base⟩
  · intro type inTypes part member v isBase other inOthers u inOther sameId
    obtain ⟨id, base, isTail⟩ := tail type inTypes part member
    obtain rfl : v = ⟨id, none⟩ := Ty.var.inj (isBase.symm.trans base)
    have isPlain := (kinded other inOthers).of_mem_plainVars inOther
    rw [sameId, isTail] at isPlain
    cases isPlain
  · intro type inTypes part member v isBase other inOthers part' member' v' isBase' sameId
    obtain ⟨id, base, isTail⟩ := tail type inTypes part member
    obtain ⟨id', base', isTail'⟩ := tail other inOthers part' member'
    obtain rfl : v = ⟨id, none⟩ := Ty.var.inj (isBase.symm.trans base)
    obtain rfl : v' = ⟨id', none⟩ := Ty.var.inj (isBase'.symm.trans base')
    obtain rfl : id' = id := sameId
    have sameKind := Option.some.inj (isTail'.symm.trans isTail)
    exact Prod.ext (base'.trans base.symm) (Kind.tail.inj sameKind)

end RowInference
