import RowInference.Proofs.Types.Flattening
import RowInference.Proofs.Types.Signature

/-! # Kinds of variables

Inference uses a variable either as a type or as the tail of a row, never as both, and all extensions of one tail
have the same fields. A kinding records this: a *plain* variable has its constraint, a *tail* has the fields on top of
it. Types that follow a kinding are *kinded*. A replacement of variables that *carries* one kinding to another takes
kinded types to kinded types, and no field of a base is lost under the fields on top of it.
-/

namespace RowInference

/-- How a variable is used. -/
inductive Kind where
  /-- As a type, under a constraint. -/
  | plain (constraint : Option Constraint)
  /-- As what stands below these fields of a record. -/
  | tail (fields : Row)

namespace Kind

/-- The constraint under which a variable of this kind is used. -/
def constraint : Kind → Option Constraint
  | plain constraint => constraint
  | tail _ => none

def mapVars (replace : TypeVar → Ty) : Kind → Kind
  | plain constraint => plain constraint
  | tail fields => tail (fields.mapVars replace)

@[simp] theorem constraint_mapVars (replace : TypeVar → Ty) (kind : Kind) :
    (kind.mapVars replace).constraint = kind.constraint := by
  cases kind <;> rfl

end Kind

/-- The kind of each variable in play. -/
abbrev Kinding := VarId → Option Kind

/-- The constraints of the variables of a kinding. -/
def Kinding.signature (kinds : Kinding) : Signature := fun id => (kinds id).map Kind.constraint

theorem Kinding.signature_of_some {kinds : Kinding} {id : VarId} {kind : Kind} (isKind : kinds id = some kind) :
    kinds.signature id = some kind.constraint := by
  rw [signature, isKind, Option.map_some]

/-! ## Kinded types -/

mutual

/-- Variables are used according to their kinds, and all rows are sorted. -/
def Ty.Kinded (kinds : Kinding) : Ty → Prop
  | .var v => kinds v.id = some (.plain v.constraint)
  | .tuple first second => first.Kinded kinds ∧ second.Kinded kinds
  | .triple first second third => first.Kinded kinds ∧ second.Kinded kinds ∧ third.Kinded kinds
  | .list element => element.Kinded kinds
  | .function source target => source.Kinded kinds ∧ target.Kinded kinds
  | .record fields => fields.Kinded kinds
  | .extension base fields =>
    (∃ id, base = .var ⟨id, none⟩ ∧ kinds id = some (.tail fields)) ∧ fields.Kinded kinds
  | _ => True

/-- The types of all fields are kinded, and the names increase. -/
def Row.Kinded (kinds : Kinding) : Row → Prop
  | .empty => True
  | .field name type rest =>
    type.Kinded kinds ∧ rest.Kinded kinds ∧ ∀ entry ∈ rest.toList, compare name entry.1 = .lt

end

variable {kinds kinds' : Kinding}

/-- A row is kinded if its names increase and its types are kinded. -/
theorem Row.kinded_iff {row : Row} : row.Kinded kinds ↔ row.Sorted ∧ row.All (Ty.Kinded kinds) := by
  induction row using Row.induction with
  | empty => simp [Row.Kinded, Sorted, All, toList]
  | field name type rest ih =>
    simp only [Row.Kinded, Sorted, All, toList, List.mem_cons, forall_eq_or_imp, ih]
    tauto

namespace Row

theorem Kinded.sorted {row : Row} (kinded : row.Kinded kinds) : row.Sorted := (kinded_iff.mp kinded).1

theorem Kinded.all {row : Row} (kinded : row.Kinded kinds) : row.All (Ty.Kinded kinds) := (kinded_iff.mp kinded).2

theorem Kinded.extend {row other : Row} (kinded : row.Kinded kinds) (others : other.Kinded kinds) :
    (row.extend other).Kinded kinds :=
  kinded_iff.mpr ⟨kinded.sorted.extend other, kinded.all.extend others.all⟩

/-- A part of a kinded row is kinded. -/
theorem Kinded.without {row : Row} (kinded : row.Kinded kinds) (other : Row) : (row.without other).Kinded kinds :=
  kinded_iff.mpr ⟨kinded.sorted.without other, kinded.all.without other⟩

end Row

/-- A kinded type is within the signature of the kinding. -/
theorem Ty.Kinded.within {type : Ty} (kinded : type.Kinded kinds) : type.Within kinds.signature := by
  have ofRow : ∀ fields : Row, fields.Kinded kinds →
      (fields.All fun type => type.Kinded kinds → type.Within kinds.signature) → fields.Within kinds.signature :=
    fun fields fieldsKinded each =>
      ⟨fieldsKinded.sorted, fun entry member => each entry member (fieldsKinded.all entry member)⟩
  induction type using Ty.induction with
  | atom type basic => exact within_of_isAtom basic
  | var v =>
    rw [Ty.Kinded] at kinded
    rw [within_var, Kinding.signature, kinded]
    rfl
  | tuple first second ih ih' => exact within_tuple.mpr ⟨ih kinded.1, ih' kinded.2⟩
  | triple first second third ih ih' ih'' =>
    exact within_triple.mpr ⟨ih kinded.1, ih' kinded.2.1, ih'' kinded.2.2⟩
  | list element ih => exact within_list.mpr (ih kinded)
  | function source target ih ih' => exact within_function.mpr ⟨ih kinded.1, ih' kinded.2⟩
  | record fields ih => exact within_record.mpr (ofRow fields kinded ih)
  | extension base fields ih ih' =>
    obtain ⟨⟨id, rfl, isTail⟩, fieldsKinded⟩ := kinded
    refine within_extension.mpr ⟨rfl, within_var.mpr ?_, ofRow fields fieldsKinded ih'⟩
    rw [Kinding.signature, isTail]
    rfl

theorem Row.Kinded.within {row : Row} (kinded : row.Kinded kinds) : row.Within kinds.signature :=
  ⟨kinded.sorted, fun entry member => (kinded.all entry member).within⟩

theorem Row.Kinded.canonical {row : Row} (kinded : row.Kinded kinds) : row.Canonical :=
  (Ty.within_record.mpr kinded.within).canonical

theorem Row.Kinded.flat {row : Row} (kinded : row.Kinded kinds) : row.Flat :=
  (Ty.within_record.mpr kinded.within).flat

/-! ## Carrying a kinding -/

/-- The type may stand below these fields of a record. -/
def Ty.FitsTail (kinds : Kinding) (fields : Row) : Ty → Prop
  | .var v => v.constraint = none ∧ kinds v.id = some (.tail fields)
  | .record inner => inner.Kinded kinds ∧ inner.Disjoint fields
  | .extension base inner =>
    (∃ id, base = .var ⟨id, none⟩ ∧ kinds id = some (.tail (inner.extend fields))) ∧
      inner.Kinded kinds ∧ inner.Disjoint fields
  | _ => False

/-- The type may be the value of a variable: it stands for itself or below some fields of a record. -/
def Ty.Usable (kinds : Kinding) (type : Ty) : Prop :=
  type.Kinded kinds ∨ ∃ fields : Row, fields.Canonical ∧ fields.Flat ∧ type.FitsTail kinds fields

/-- The replacement takes variables of one kinding to types of another. -/
structure Kinding.Carries (kinds : Kinding) (replace : TypeVar → Ty) (kinds' : Kinding) : Prop where
  canonical : ∀ v, (replace v).Canonical
  flat : ∀ v, (replace v).Flat
  plain : ∀ ⦃v : TypeVar⦄, kinds v.id = some (.plain v.constraint) → (replace v).Kinded kinds'
  tail : ∀ ⦃id : VarId⦄ ⦃fields : Row⦄, kinds id = some (.tail fields) → fields.Canonical → fields.Flat →
    (replace ⟨id, none⟩).FitsTail kinds' (fields.mapVars replace)

/-- Fields on top of a fitting tail make a kinded record. -/
theorem Ty.FitsTail.flatten {fields : Row} {type : Ty} (fits : type.FitsTail kinds fields)
    (kinded : fields.Kinded kinds) : (type.flatten fields).Kinded kinds := by
  cases type <;> simp only [FitsTail] at fits
  case var v =>
    obtain ⟨unconstrained, isTail⟩ := fits
    refine ⟨⟨v.id, ?_, isTail⟩, kinded⟩
    rw [← unconstrained]
  case record inner => exact fits.1.extend kinded
  case extension base inner => exact ⟨fits.1, fits.2.1.extend kinded⟩

/-- What may stand below fields is within the signature. -/
theorem Ty.FitsTail.within {fields : Row} {type : Ty} (fits : type.FitsTail kinds fields) :
    type.Within kinds.signature := by
  have known : ∀ {id : VarId} {fields : Row}, kinds id = some (.tail fields) →
      (Ty.var ⟨id, none⟩).Within kinds.signature := by
    intro id fields isTail
    rw [within_var, Kinding.signature, isTail]
    rfl
  cases type <;> simp only [FitsTail] at fits
  case var v =>
    have isKnown := known fits.2
    rwa [← fits.1] at isKnown
  case record inner => exact within_record.mpr fits.1.within
  case extension base inner =>
    obtain ⟨⟨id, rfl, isTail⟩, innerKinded, _⟩ := fits
    exact within_extension.mpr ⟨rfl, known isTail, innerKinded.within⟩

namespace Kinding.Carries

variable {replace : TypeVar → Ty}

/-- A replacement takes kinded types to kinded types. -/
theorem kinded (carries : kinds.Carries replace kinds') {type : Ty} (kinded : type.Kinded kinds) :
    (type.mapVars replace).Kinded kinds' := by
  have ofRow : ∀ fields : Row, fields.Kinded kinds →
      (fields.All fun type => type.Kinded kinds → (type.mapVars replace).Kinded kinds') →
      (fields.mapVars replace).Kinded kinds' :=
    fun fields fieldsKinded each => Row.kinded_iff.mpr ⟨(Row.sorted_mapVars replace).mpr fieldsKinded.sorted,
      (Row.all_mapVars replace).mpr fun entry member => each entry member (fieldsKinded.all entry member)⟩
  induction type using Ty.induction with
  | atom type basic =>
    rw [Ty.mapVars_of_isAtom basic]
    cases type <;> simp_all [Ty.isAtom, Ty.Kinded]
  | var v => exact carries.plain kinded
  | tuple first second ih ih' => exact ⟨ih kinded.1, ih' kinded.2⟩
  | triple first second third ih ih' ih'' => exact ⟨ih kinded.1, ih' kinded.2.1, ih'' kinded.2.2⟩
  | list element ih => exact ih kinded
  | function source target ih ih' => exact ⟨ih kinded.1, ih' kinded.2⟩
  | record fields ih => exact ofRow fields kinded ih
  | extension base fields ih ih' =>
    obtain ⟨⟨id, rfl, isTail⟩, fieldsKinded⟩ := kinded
    exact (carries.tail isTail fieldsKinded.canonical fieldsKinded.flat).flatten (ofRow fields fieldsKinded ih')

theorem kindedRow (carries : kinds.Carries replace kinds') {row : Row} (kinded : row.Kinded kinds) :
    (row.mapVars replace).Kinded kinds' := by
  have whole : (Ty.record row).Kinded kinds := kinded
  exact carries.kinded whole

/-- What fits below some fields still fits below them after a replacement. -/
theorem fitsTail (carries : kinds.Carries replace kinds') {fields : Row} (canonical : fields.Canonical)
    (flat : fields.Flat) {type : Ty} (fits : type.FitsTail kinds fields) :
    (type.mapVars replace).FitsTail kinds' (fields.mapVars replace) := by
  cases type <;> simp only [Ty.FitsTail] at fits
  case var v =>
    obtain ⟨unconstrained, isTail⟩ := fits
    obtain ⟨id, constraint⟩ := v
    subst unconstrained
    exact carries.tail isTail canonical flat
  case record inner => exact ⟨carries.kindedRow fits.1, fits.2.mapVars replace⟩
  case extension base inner =>
    obtain ⟨⟨id, rfl, isTail⟩, kinded, disjoint⟩ := fits
    have innerKinded := carries.kindedRow kinded
    have innerDisjoint := disjoint.mapVars replace
    have below := carries.tail isTail (kinded.canonical.extend canonical) (kinded.flat.extend flat)
    have fieldsSorted : (fields.mapVars replace).Sorted := (Row.sorted_mapVars replace).mpr canonical.sorted
    rw [Row.mapVars_extend] at below
    -- The replaced tail brings fields of its own, apart from those of `inner` and from `fields`.
    have apart : ∀ own : Row, own.Disjoint ((inner.mapVars replace).extend (fields.mapVars replace)) →
        (own.extend (inner.mapVars replace)).Disjoint (fields.mapVars replace) := by
      intro own ownDisjoint key present
      have absent := ownDisjoint key (by rw [Row.contains_extend, present, Bool.true_or])
      rw [Row.contains_extend, absent, innerDisjoint key present]
      rfl
    change ((replace ⟨id, none⟩).flatten (inner.mapVars replace)).FitsTail kinds' (fields.mapVars replace)
    generalize replace ⟨id, none⟩ = bottom at below
    cases bottom <;> simp only [Ty.FitsTail] at below
    case var v =>
      obtain ⟨unconstrained, isTail'⟩ := below
      refine ⟨⟨v.id, ?_, isTail'⟩, innerKinded, innerDisjoint⟩
      rw [← unconstrained]
    case record own => exact ⟨below.1.extend innerKinded, apart own below.2⟩
    case extension base own =>
      obtain ⟨⟨id', rfl, isTail'⟩, ownKinded, ownDisjoint⟩ := below
      refine ⟨⟨id', rfl, ?_⟩, ownKinded.extend innerKinded, apart own ownDisjoint⟩
      rw [isTail', Row.extend_extend ownKinded.sorted innerKinded.sorted fieldsSorted]

/-- A replacement takes usable types to usable types. -/
theorem usable (carries : kinds.Carries replace kinds') {type : Ty} (usable : type.Usable kinds) :
    (type.mapVars replace).Usable kinds' := by
  rcases usable with kinded | ⟨fields, canonical, flat, fits⟩
  · exact .inl (carries.kinded kinded)
  · have whole : (Ty.record fields).Canonical := canonical
    have mappedCanonical : ((Ty.record fields).mapVars replace).Canonical :=
      Ty.mapVars_canonical whole carries.canonical
    have mappedFlat : ((Ty.record fields).mapVars replace).Flat := Ty.mapVars_flat _ carries.flat
    exact .inr ⟨fields.mapVars replace, mappedCanonical, mappedFlat, carries.fitsTail canonical flat fits⟩

/-- Replacements are carried out one after the other. -/
theorem compose {kinds'' : Kinding} {other : TypeVar → Ty} (first : kinds.Carries replace kinds')
    (second : kinds'.Carries other kinds'') : kinds.Carries (fun v => (replace v).mapVars other) kinds'' where
  canonical v := Ty.mapVars_canonical (first.canonical v) second.canonical
  flat v := Ty.mapVars_flat (replace v) second.flat
  plain _ isPlain := second.kinded (first.plain isPlain)
  tail id fields isTail canonical flat := by
    have whole : (Ty.record fields).Canonical := canonical
    have both : (fields.mapVars replace).mapVars other = fields.mapVars fun v => (replace v).mapVars other :=
      Ty.record.inj (Ty.mapVars_mapVars whole first.canonical second.canonical)
    have mappedCanonical : ((Ty.record fields).mapVars replace).Canonical := Ty.mapVars_canonical whole first.canonical
    have mappedFlat : ((Ty.record fields).mapVars replace).Flat := Ty.mapVars_flat _ first.flat
    rw [← both]
    exact second.fitsTail mappedCanonical mappedFlat (first.tail isTail canonical flat)

end Kinding.Carries

/-! ## Larger kindings -/

/-- The second kinding has at least the variables of the first. -/
def Kinding.Sub (kinds wider : Kinding) : Prop := ∀ ⦃id : VarId⦄ ⦃kind⦄, kinds id = some kind → wider id = some kind

theorem Kinding.Sub.signature {wider : Kinding} (sub : kinds.Sub wider) : kinds.signature.Sub wider.signature := by
  intro id constraint known
  obtain ⟨kind, isKind, rfl⟩ := Option.map_eq_some_iff.mp known
  rw [Kinding.signature, sub isKind]
  rfl

theorem Row.mem_occurrences_of_mem {row : Row} {entry : String × Ty} (member : entry ∈ row.toList) {u : TypeVar}
    (inType : u ∈ entry.2.occurrences) : u ∈ row.occurrences :=
  Row.mem_occurrences.mpr ⟨entry, member, inType⟩

/-- Only the kinds of the variables in a type matter. -/
theorem Ty.Kinded.of_agree {wider : Kinding} {type : Ty} (kinded : type.Kinded kinds)
    (agree : ∀ v ∈ type.occurrences, ∀ kind, kinds v.id = some kind → wider v.id = some kind) :
    type.Kinded wider := by
  have ofRow : ∀ fields : Row, fields.Kinded kinds →
      (∀ v ∈ fields.occurrences, ∀ kind, kinds v.id = some kind → wider v.id = some kind) →
      (fields.All fun type => type.Kinded kinds →
        (∀ v ∈ type.occurrences, ∀ kind, kinds v.id = some kind → wider v.id = some kind) → type.Kinded wider) →
      fields.Kinded wider :=
    fun fields fieldsKinded fieldsAgree each => Row.kinded_iff.mpr ⟨fieldsKinded.sorted,
      fun entry member => each entry member (fieldsKinded.all entry member)
        fun v inType => fieldsAgree v (Row.mem_occurrences_of_mem member inType)⟩
  induction type using Ty.induction with
  | atom type basic => cases type <;> simp_all [Ty.isAtom, Ty.Kinded]
  | var u => exact agree u (List.mem_singleton_self u) _ kinded
  | tuple first second ih ih' =>
    simp only [occurrences, List.mem_append, or_imp, forall_and] at agree
    exact ⟨ih kinded.1 agree.1, ih' kinded.2 agree.2⟩
  | triple first second third ih ih' ih'' =>
    simp only [occurrences, List.mem_append, or_imp, forall_and] at agree
    exact ⟨ih kinded.1 agree.1, ih' kinded.2.1 agree.2.1, ih'' kinded.2.2 agree.2.2⟩
  | list element ih => exact ih kinded agree
  | function source target ih ih' =>
    simp only [occurrences, List.mem_append, or_imp, forall_and] at agree
    exact ⟨ih kinded.1 agree.1, ih' kinded.2 agree.2⟩
  | record fields ih => exact ofRow fields kinded agree ih
  | extension base fields ih ih' =>
    obtain ⟨⟨id, rfl, isTail⟩, fieldsKinded⟩ := kinded
    simp only [occurrences, List.mem_append, List.mem_singleton, or_imp, forall_and, forall_eq] at agree
    exact ⟨⟨id, rfl, agree.1 _ isTail⟩, ofRow fields fieldsKinded agree.2 ih'⟩

/-- What follows a kinding follows every wider one. -/
theorem Ty.Kinded.mono {wider : Kinding} (sub : kinds.Sub wider) {type : Ty} (kinded : type.Kinded kinds) :
    type.Kinded wider := kinded.of_agree fun _ _ _ isKind => sub isKind

theorem Row.Kinded.mono {wider : Kinding} (sub : kinds.Sub wider) {row : Row} (kinded : row.Kinded kinds) :
    row.Kinded wider :=
  Row.kinded_iff.mpr ⟨kinded.sorted, fun entry member => (kinded.all entry member).mono sub⟩

theorem Ty.FitsTail.mono {wider : Kinding} (sub : kinds.Sub wider) {fields : Row} {type : Ty}
    (fits : type.FitsTail kinds fields) : type.FitsTail wider fields := by
  cases type <;> simp only [FitsTail] at fits
  case var v => exact ⟨fits.1, sub fits.2⟩
  case record inner => exact ⟨fits.1.mono sub, fits.2⟩
  case extension base inner =>
    obtain ⟨⟨id, rfl, isTail⟩, kinded, disjoint⟩ := fits
    exact ⟨⟨id, rfl, sub isTail⟩, kinded.mono sub, disjoint⟩

theorem Kinding.Carries.mono {wider : Kinding} {replace : TypeVar → Ty} (carries : kinds.Carries replace kinds')
    (sub : kinds'.Sub wider) : kinds.Carries replace wider where
  canonical := carries.canonical
  flat := carries.flat
  plain _ isPlain := (carries.plain isPlain).mono sub
  tail _ _ isTail canonical flat := (carries.tail isTail canonical flat).mono sub

def Kinding.add (kinds : Kinding) (id : VarId) (kind : Kind) : Kinding :=
  fun other => if other = id then some kind else kinds other

@[simp] theorem Kinding.add_self (kinds : Kinding) (id : VarId) (kind : Kind) : kinds.add id kind id = some kind :=
  if_pos rfl

theorem Kinding.add_of_ne {id other : VarId} (kind : Kind) (different : other ≠ id) :
    kinds.add id kind other = kinds other := if_neg different

/-- A new variable changes nothing about the others. -/
theorem Kinding.sub_add {id : VarId} (new : kinds id = none) (kind : Kind) : kinds.Sub (kinds.add id kind) := by
  intro other known isKnown
  have different : other ≠ id := by
    rintro rfl
    rw [new] at isKnown
    cases isKnown
  rwa [Kinding.add_of_ne kind different]

/-! ## Binding one variable -/

def TypeVar.bind (v : TypeVar) (type : Ty) : TypeVar → Ty := fun u => if u.id = v.id then type else .var u

theorem TypeVar.bind_self (v : TypeVar) (type : Ty) (constraint : Option Constraint) :
    v.bind type ⟨v.id, constraint⟩ = type := if_pos rfl

theorem TypeVar.bind_of_ne {v u : TypeVar} (type : Ty) (different : u.id ≠ v.id) : v.bind type u = .var u :=
  if_neg different

/-- The kinding after a variable has been bound. -/
def Kinding.bind (kinds : Kinding) (v : TypeVar) (type : Ty) : Kinding :=
  fun id => if id = v.id then none else (kinds id).map (Kind.mapVars (v.bind type))

section Binding

variable {v : TypeVar} {value : Ty}

theorem Kinding.bind_of_ne {id : VarId} (different : id ≠ v.id) :
    kinds.bind v value id = (kinds id).map (Kind.mapVars (v.bind value)) := if_neg different

/-- Fields without the variable are left as they are. -/
theorem Row.mapVars_bind {row : Row} (flat : row.Flat) (absent : ∀ u ∈ row.occurrences, u.id ≠ v.id) :
    row.mapVars (v.bind value) = row := by
  have whole : (Ty.record row).Flat := flat
  exact Ty.record.inj (Ty.mapVars_eq_self whole fun u inRow => TypeVar.bind_of_ne value (absent u inRow))

/-- A type without the bound variable stays kinded. -/
theorem Ty.Kinded.bind {type : Ty} (kinded : type.Kinded kinds)
    (absent : ∀ u ∈ type.occurrences, u.id ≠ v.id) : type.Kinded (kinds.bind v value) := by
  have ofRow : ∀ fields : Row, fields.Kinded kinds → (∀ u ∈ fields.occurrences, u.id ≠ v.id) →
      (fields.All fun type => type.Kinded kinds → (∀ u ∈ type.occurrences, u.id ≠ v.id) →
        type.Kinded (kinds.bind v value)) → fields.Kinded (kinds.bind v value) :=
    fun fields fieldsKinded fieldsAbsent each => Row.kinded_iff.mpr ⟨fieldsKinded.sorted,
      fun entry member => each entry member (fieldsKinded.all entry member)
        fun u inType => fieldsAbsent u (Row.mem_occurrences_of_mem member inType)⟩
  induction type using Ty.induction with
  | atom type basic => cases type <;> simp_all [Ty.isAtom, Ty.Kinded]
  | var u =>
    rw [Ty.Kinded] at kinded ⊢
    rw [Kinding.bind_of_ne (absent u (List.mem_singleton_self u)), kinded]
    rfl
  | tuple first second ih ih' =>
    simp only [occurrences, List.mem_append, or_imp, forall_and] at absent
    exact ⟨ih kinded.1 absent.1, ih' kinded.2 absent.2⟩
  | triple first second third ih ih' ih'' =>
    simp only [occurrences, List.mem_append, or_imp, forall_and] at absent
    exact ⟨ih kinded.1 absent.1, ih' kinded.2.1 absent.2.1, ih'' kinded.2.2 absent.2.2⟩
  | list element ih => exact ih kinded absent
  | function source target ih ih' =>
    simp only [occurrences, List.mem_append, or_imp, forall_and] at absent
    exact ⟨ih kinded.1 absent.1, ih' kinded.2 absent.2⟩
  | record fields ih => exact ofRow fields kinded absent ih
  | extension base fields ih ih' =>
    obtain ⟨⟨id, rfl, isTail⟩, fieldsKinded⟩ := kinded
    simp only [occurrences, List.mem_append, List.mem_singleton, or_imp, forall_and, forall_eq] at absent
    refine ⟨⟨id, rfl, ?_⟩, ofRow fields fieldsKinded absent.2 ih'⟩
    rw [Kinding.bind_of_ne absent.1, isTail, Option.map_some, Kind.mapVars,
      Row.mapVars_bind fieldsKinded.flat absent.2]

/-- What may stand below fields still may when another variable is bound. -/
theorem Ty.FitsTail.bind {fields : Row} (fieldsKinded : fields.Kinded kinds)
    (absentFields : ∀ u ∈ fields.occurrences, u.id ≠ v.id) {type : Ty} (fits : type.FitsTail kinds fields)
    (absent : ∀ u ∈ type.occurrences, u.id ≠ v.id) : type.FitsTail (kinds.bind v value) fields := by
  cases type <;> simp only [FitsTail] at fits
  case var u =>
    refine ⟨fits.1, ?_⟩
    rw [Kinding.bind_of_ne (absent u (List.mem_singleton_self u)), fits.2, Option.map_some, Kind.mapVars,
      Row.mapVars_bind fieldsKinded.flat absentFields]
  case record inner =>
    have whole : (Ty.record inner).Kinded kinds := fits.1
    exact ⟨whole.bind absent, fits.2⟩
  case extension base inner =>
    obtain ⟨⟨id, rfl, isTail⟩, innerKinded, disjoint⟩ := fits
    simp only [occurrences, List.mem_append, List.mem_singleton, or_imp, forall_and, forall_eq] at absent
    have whole : (Ty.record inner).Kinded kinds := innerKinded
    refine ⟨⟨id, rfl, ?_⟩, whole.bind absent.2, disjoint⟩
    rw [Kinding.bind_of_ne absent.1, isTail, Option.map_some, Kind.mapVars,
      Row.mapVars_extend, Row.mapVars_bind fieldsKinded.flat absentFields, Row.mapVars_bind innerKinded.flat absent.2]

/-- Other variables keep their kinds. -/
private theorem Kinding.carries_bind (canonical : value.Canonical) (flat : value.Flat)
    (plain : ∀ constraint, kinds v.id = some (.plain constraint) → value.Kinded (kinds.bind v value))
    (tail : ∀ fields, kinds v.id = some (.tail fields) →
      value.FitsTail (kinds.bind v value) (fields.mapVars (v.bind value))) :
    kinds.Carries (v.bind value) (kinds.bind v value) where
  canonical u := by
    rw [TypeVar.bind]
    split
    · exact canonical
    · trivial
  flat u := by
    rw [TypeVar.bind]
    split
    · exact flat
    · trivial
  plain u isPlain := by
    by_cases same : u.id = v.id
    · rw [TypeVar.bind, if_pos same]
      exact plain u.constraint (same ▸ isPlain)
    · rw [TypeVar.bind_of_ne value same, Ty.Kinded, Kinding.bind_of_ne same, isPlain]
      rfl
  tail id fields isTail _ _ := by
    by_cases same : id = v.id
    · subst same
      rw [TypeVar.bind_self]
      exact tail fields isTail
    · have different : (⟨id, none⟩ : TypeVar).id ≠ v.id := same
      rw [TypeVar.bind_of_ne value different]
      refine ⟨rfl, ?_⟩
      rw [Kinding.bind_of_ne same, isTail]
      rfl

/-- Binding a variable for types to a kinded type carries the kinding on. -/
theorem Kinding.carries_bind_plain {constraint : Option Constraint} (isPlain : kinds v.id = some (.plain constraint))
    (kinded : value.Kinded kinds) (absent : ∀ u ∈ value.occurrences, u.id ≠ v.id) :
    kinds.Carries (v.bind value) (kinds.bind v value) := by
  refine carries_bind kinded.within.canonical kinded.within.flat (fun _ _ => kinded.bind absent) ?_
  intro fields isTail
  rw [isPlain] at isTail
  cases isTail

/-- Binding a tail to what may stand in its place carries the kinding on. -/
theorem Kinding.carries_bind_tail {fields : Row} (isTail : kinds v.id = some (.tail fields))
    (fieldsKinded : fields.Kinded kinds) (absentFields : ∀ u ∈ fields.occurrences, u.id ≠ v.id)
    (fits : value.FitsTail kinds fields)
    (absent : ∀ u ∈ value.occurrences, u.id ≠ v.id) : kinds.Carries (v.bind value) (kinds.bind v value) := by
  refine carries_bind fits.within.canonical fits.within.flat ?_ ?_
  · intro constraint isPlain
    rw [isTail] at isPlain
    cases isPlain
  · intro other isTail'
    rw [isTail] at isTail'
    cases isTail'
    rw [Row.mapVars_bind fieldsKinded.flat absentFields]
    exact fits.bind fieldsKinded absentFields absent

end Binding

end RowInference
