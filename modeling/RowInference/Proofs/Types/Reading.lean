import RowInference.Proofs.Types.Row
import Mathlib.Tactic.Tauto

/-! # Reading types under a valuation

A valuation gives a type to every variable. Reading a type replaces its variables and puts rows over a record
together; the values are types as inference builds them, so that readings compose. Inference is described by the
valuations that solve what it has learnt: every statement about types known so far is a statement about their
readings.
-/

namespace RowInference

/-! ## Induction on types

Rows occur in types only as lists of fields, so an induction hypothesis for a row is one for each of its types. -/

/-- Every type of the row has a property. -/
def Row.All (holds : Ty → Prop) (row : Row) : Prop := ∀ entry ∈ row.toList, holds entry.2

/-- Induction on types; the six atoms are one case. -/
theorem Ty.induction {holds : Ty → Prop} (atom : ∀ type : Ty, type.isAtom = true → holds type)
    (var : ∀ v, holds (.var v))
    (tuple : ∀ first second, holds first → holds second → holds (.tuple first second))
    (triple : ∀ first second third, holds first → holds second → holds third →
      holds (.triple first second third))
    (list : ∀ element, holds element → holds (.list element))
    (function : ∀ source target, holds source → holds target → holds (.function source target))
    (record : ∀ fields : Row, fields.All holds → holds (.record fields))
    (extension : ∀ (base : Ty) (fields : Row), holds base → fields.All holds →
      holds (.extension base fields))
    (type : Ty) : holds type :=
  Ty.rec (motive_1 := holds) (motive_2 := Row.All holds)
    (atom .unit rfl) (atom .bool rfl) (atom .char rfl) (atom .string rfl) (atom .int rfl)
    (atom .float rfl) var tuple triple list function record extension
    (by intro entry member; cases member)
    (by
      intro name type rest here there entry member
      rcases List.mem_cons.mp member with rfl | later
      · exact here
      · exact there entry later)
    type

namespace Row

theorem toList_injective {left right : Row} (same : left.toList = right.toList) : left = right := by
  induction left using Row.induction generalizing right with
  | empty => cases right <;> simp_all [toList]
  | field name type rest ih =>
    cases right with
    | empty => simp [toList] at same
    | field name' type' rest' =>
      simp only [toList, List.cons.injEq, Prod.mk.injEq] at same
      obtain ⟨⟨rfl, rfl⟩, rests⟩ := same
      rw [ih rests]

/-- A row is canonical if its names increase and its types are canonical. -/
theorem canonical_iff {row : Row} : row.Canonical ↔ row.Sorted ∧ row.All Ty.Canonical := by
  induction row using Row.induction with
  | empty => simp [Canonical, Sorted, All, toList]
  | field name type rest ih =>
    simp only [Canonical, Sorted, All, toList, List.mem_cons, forall_eq_or_imp, ih]
    tauto

/-- A property of the types of two rows is one of the types of both together. -/
theorem All.extend {holds : Ty → Prop} {row other : Row} (all : row.All holds)
    (others : other.All holds) : (row.extend other).All holds := by
  intro entry member
  rcases mem_toList_extend member with new | old
  · exact others entry new
  · exact all entry old

theorem All.without {holds : Ty → Prop} {row : Row} (all : row.All holds) (other : Row) :
    (row.without other).All holds :=
  fun entry member => all entry (mem_toList_without member)

theorem All.get? {holds : Ty → Prop} {row : Row} (all : row.All holds) {key : String} {type : Ty}
    (found : row.get? key = some type) : holds type :=
  all _ (mem_toList_of_get? found)

theorem Canonical.extend {row other : Row} (canonical : row.Canonical) (others : other.Canonical) :
    (row.extend other).Canonical :=
  canonical_iff.mpr ⟨(canonical_iff.mp canonical).1.extend other,
    (canonical_iff.mp canonical).2.extend (canonical_iff.mp others).2⟩

theorem Canonical.without {row : Row} (canonical : row.Canonical) (other : Row) :
    (row.without other).Canonical :=
  canonical_iff.mpr ⟨(canonical_iff.mp canonical).1.without other,
    (canonical_iff.mp canonical).2.without other⟩

theorem Canonical.sorted {row : Row} (canonical : row.Canonical) : row.Sorted :=
  (canonical_iff.mp canonical).1

theorem Canonical.get? {row : Row} (canonical : row.Canonical) {key : String} {type : Ty}
    (found : row.get? key = some type) : type.Canonical :=
  (canonical_iff.mp canonical).2.get? found

theorem ofList_canonical {fields : List (String × Ty)} (all : ∀ entry ∈ fields, entry.2.Canonical) :
    (ofList fields).Canonical :=
  canonical_iff.mpr ⟨ofList_sorted fields, fun entry member => all entry (mem_toList_ofList member)⟩

/-! ## Replacing variables in rows -/

variable (replace : TypeVar → Ty)

theorem toList_mapVars (row : Row) :
    (row.mapVars replace).toList = row.toList.map fun entry => (entry.1, entry.2.mapVars replace) := by
  induction row using Row.induction with
  | empty => simp [mapVars, toList]
  | field name type rest ih => simp [mapVars, toList, ih]

@[simp] theorem get?_mapVars (row : Row) (key : String) :
    (row.mapVars replace).get? key = (row.get? key).map (Ty.mapVars replace) := by
  induction row using Row.induction with
  | empty => simp [mapVars, get?]
  | field name type rest ih =>
    by_cases same : key = name <;> simp [mapVars, get?, same, ih]

@[simp] theorem contains_mapVars (row : Row) (key : String) :
    (row.mapVars replace).contains key = row.contains key := by
  simp [contains]

@[simp] theorem isEmpty_mapVars (row : Row) : (row.mapVars replace).isEmpty = row.isEmpty := by
  cases row <;> simp [mapVars, isEmpty]

theorem mapVars_insert (row : Row) (key : String) (value : Ty) :
    (row.insert key value).mapVars replace = (row.mapVars replace).insert key (value.mapVars replace) := by
  induction row using Row.induction with
  | empty => simp [insert, mapVars]
  | field name type rest ih =>
    simp only [insert, mapVars]
    split <;> simp [mapVars, ih]

/-- Replacing variables goes through an extension of rows. -/
theorem mapVars_extend (row other : Row) :
    (row.extend other).mapVars replace = (row.mapVars replace).extend (other.mapVars replace) := by
  induction other using Row.induction generalizing row with
  | empty => simp [extend, mapVars]
  | field name type rest ih => simp [extend, mapVars, ih, mapVars_insert]

theorem mapVars_without (row other : Row) :
    (row.without other).mapVars replace = (row.mapVars replace).without (other.mapVars replace) := by
  induction row using Row.induction with
  | empty => simp [without, mapVars]
  | field name type rest ih =>
    simp only [without, mapVars, contains_mapVars]
    split <;> simp [mapVars, ih]

theorem mapVars_ofList (fields : List (String × Ty)) :
    (ofList fields).mapVars replace = ofList (fields.map fun entry => (entry.1, entry.2.mapVars replace)) := by
  have general : ∀ row : Row,
      (fields.foldl (fun row entry => row.insert entry.1 entry.2) row).mapVars replace
        = (fields.map fun entry => (entry.1, entry.2.mapVars replace)).foldl
            (fun row entry => row.insert entry.1 entry.2) (row.mapVars replace) := by
    induction fields with
    | nil => exact fun _ => rfl
    | cons entry rest ih =>
      intro row
      rw [List.foldl_cons, ih, mapVars_insert]
      rfl
  exact general empty

theorem sorted_mapVars {row : Row} : (row.mapVars replace).Sorted ↔ row.Sorted := by
  induction row using Row.induction with
  | empty => simp [mapVars, Sorted]
  | field name type rest ih => rw [mapVars, Sorted, Sorted, ih, toList_mapVars, List.forall_mem_map]

theorem all_mapVars {holds : Ty → Prop} {row : Row} :
    (row.mapVars replace).All holds ↔ row.All fun type => holds (type.mapVars replace) := by
  rw [All, toList_mapVars, List.forall_mem_map, All]

theorem mapVars_eq {row : Row} {replace other : TypeVar → Ty}
    (same : row.All fun type => type.mapVars replace = type.mapVars other) :
    row.mapVars replace = row.mapVars other := by
  apply toList_injective
  rw [toList_mapVars, toList_mapVars]
  exact List.map_congr_left fun entry member => by rw [same entry member]

end Row

/-! ## Flat types -/

mutual

/-- No extension inside the type has a record as its base. -/
def Ty.Flat : Ty → Prop
  | .tuple first second => first.Flat ∧ second.Flat
  | .triple first second third => first.Flat ∧ second.Flat ∧ third.Flat
  | .list element => element.Flat
  | .function source target => source.Flat ∧ target.Flat
  | .record fields => fields.Flat
  | .extension base fields => base.isRecord = false ∧ base.Flat ∧ fields.Flat
  | _ => True

def Row.Flat : Row → Prop
  | .empty => True
  | .field _ type rest => type.Flat ∧ rest.Flat

end

/-- A row is flat if its types are. -/
theorem Row.flat_iff {row : Row} : row.Flat ↔ row.All Ty.Flat := by
  induction row using Row.induction with
  | empty => simp [Flat, All, toList]
  | field name type rest ih => simp [Flat, ih, All, toList]

theorem Row.Flat.extend {row other : Row} (flat : row.Flat) (others : other.Flat) : (row.extend other).Flat :=
  Row.flat_iff.mpr ((Row.flat_iff.mp flat).extend (Row.flat_iff.mp others))

/-- A variable of a row occurs in the type of some field. -/
theorem Row.mem_occurrences {row : Row} {v : TypeVar} :
    v ∈ row.occurrences ↔ ∃ entry ∈ row.toList, v ∈ entry.2.occurrences := by
  induction row using Row.induction with
  | empty => simp [occurrences, toList]
  | field name type rest ih => simp [occurrences, ih, toList]

namespace Ty

theorem canonical_of_isAtom {type : Ty} (atom : type.isAtom = true) : type.Canonical := by
  cases type <;> simp_all [isAtom, Canonical]

theorem mapVars_of_isAtom {type : Ty} (atom : type.isAtom = true) (replace : TypeVar → Ty) :
    type.mapVars replace = type := by
  cases type <;> simp_all [isAtom, mapVars]

theorem flat_of_isAtom {type : Ty} (atom : type.isAtom = true) : type.Flat := by
  cases type <;> simp_all [isAtom, Flat]

theorem occurrences_of_isAtom {type : Ty} (atom : type.isAtom = true) : type.occurrences = [] := by
  cases type <;> simp_all [isAtom, occurrences]

/-! ## Putting fields on top of a base -/

/-- Flattening keeps rows sorted. -/
theorem flatten_canonical {fields : Row} {base : Ty} (fieldsCanonical : fields.Canonical)
    (baseCanonical : base.Canonical) : (base.flatten fields).Canonical := by
  cases base
  case record inner => exact Row.Canonical.extend baseCanonical fieldsCanonical
  case extension base inner => exact ⟨baseCanonical.1, Row.Canonical.extend baseCanonical.2 fieldsCanonical⟩
  all_goals exact ⟨baseCanonical, fieldsCanonical⟩

/-- Flattening a flat base under flat fields gives a flat type. -/
theorem flatten_flat {fields : Row} {base : Ty} (fieldsFlat : fields.Flat) (baseFlat : base.Flat) :
    (base.flatten fields).Flat := by
  cases base
  case record inner =>
    exact Row.Flat.extend baseFlat fieldsFlat
  case extension base inner => exact ⟨baseFlat.1, baseFlat.2.1, Row.Flat.extend baseFlat.2.2 fieldsFlat⟩
  all_goals exact ⟨rfl, baseFlat, fieldsFlat⟩

theorem flatten_isRecord (fields : Row) (base : Ty) : (base.flatten fields).isRecord = true := by
  cases base <;> rfl

/-- What is not a record stays below the fields. -/
theorem flatten_of_not_isRecord {base : Ty} (fields : Row) (notRecord : base.isRecord = false) :
    base.flatten fields = .extension base fields := by
  cases base <;> simp_all [isRecord, flatten]

/-- Fields put on top twice are put on top together. -/
theorem flatten_flatten {inner outer : Row} {base : Ty} (innerSorted : inner.Sorted)
    (outerSorted : outer.Sorted) (baseCanonical : base.Canonical) :
    (base.flatten inner).flatten outer = base.flatten (inner.extend outer) := by
  cases base
  case record fields =>
    exact congrArg record (Row.extend_extend (Row.Canonical.sorted baseCanonical) innerSorted outerSorted)
  case extension base fields =>
    exact congrArg (extension base)
      (Row.extend_extend (Row.Canonical.sorted baseCanonical.2) innerSorted outerSorted)
  all_goals rfl

/-- Flattening brings in no variables. -/
theorem mem_occurrences_flatten {fields : Row} {base : Ty} {v : TypeVar}
    (member : v ∈ (base.flatten fields).occurrences) : v ∈ base.occurrences ∨ v ∈ fields.occurrences := by
  have merged : ∀ inner : Row, v ∈ (inner.extend fields).occurrences →
      v ∈ inner.occurrences ∨ v ∈ fields.occurrences := by
    intro inner present
    obtain ⟨entry, inExtended, inEntry⟩ := Row.mem_occurrences.mp present
    rcases Row.mem_toList_extend inExtended with new | old
    · exact .inr (Row.mem_occurrences.mpr ⟨entry, new, inEntry⟩)
    · exact .inl (Row.mem_occurrences.mpr ⟨entry, old, inEntry⟩)
  cases base
  case record inner => exact merged inner member
  case extension base inner =>
    rcases List.mem_append.mp member with inBase | inFields
    · exact .inl (List.mem_append_left _ inBase)
    · exact (merged inner inFields).imp (List.mem_append_right _) id
  all_goals exact List.mem_append.mp member

/-! ## Replacing variables -/

variable {replace other : TypeVar → Ty}

/-- Replacing variables by canonical types keeps a type canonical. -/
theorem mapVars_canonical {type : Ty} (canonical : type.Canonical)
    (values : ∀ v, (replace v).Canonical) : (type.mapVars replace).Canonical := by
  have ofRow : ∀ fields : Row, fields.Canonical →
      (fields.All fun type => type.Canonical → (type.mapVars replace).Canonical) →
      (fields.mapVars replace).Canonical := by
    intro fields fieldsCanonical each
    obtain ⟨sorted, all⟩ := Row.canonical_iff.mp fieldsCanonical
    refine Row.canonical_iff.mpr ⟨(Row.sorted_mapVars replace).mpr sorted, (Row.all_mapVars replace).mpr ?_⟩
    exact fun entry member => each entry member (all entry member)
  induction type using Ty.induction with
  | atom type basic => rwa [mapVars_of_isAtom basic]
  | var v => exact values v
  | tuple first second ih ih' => exact ⟨ih canonical.1, ih' canonical.2⟩
  | triple first second third ih ih' ih'' => exact ⟨ih canonical.1, ih' canonical.2.1, ih'' canonical.2.2⟩
  | list element ih => exact ih canonical
  | function source target ih ih' => exact ⟨ih canonical.1, ih' canonical.2⟩
  | record fields ih => exact ofRow fields canonical ih
  | extension base fields ih ih' =>
    exact flatten_canonical (ofRow fields canonical.2 ih') (ih canonical.1)

/-- Replacing variables by flat types makes every type flat. -/
theorem mapVars_flat (type : Ty) (values : ∀ v, (replace v).Flat) : (type.mapVars replace).Flat := by
  have ofRow : ∀ fields : Row, (fields.All fun type => (type.mapVars replace).Flat) →
      (fields.mapVars replace).Flat :=
    fun fields each => Row.flat_iff.mpr ((Row.all_mapVars replace).mpr each)
  induction type using Ty.induction with
  | atom type basic => rw [mapVars_of_isAtom basic]; exact flat_of_isAtom basic
  | var v => exact values v
  | tuple first second ih ih' => exact ⟨ih, ih'⟩
  | triple first second third ih ih' ih'' => exact ⟨ih, ih', ih''⟩
  | list element ih => exact ih
  | function source target ih ih' => exact ⟨ih, ih'⟩
  | record fields ih => exact ofRow fields ih
  | extension base fields ih ih' => exact flatten_flat (ofRow fields ih') ih

/-- Putting fields on top of a base commutes with replacing variables. -/
theorem mapVars_flatten {fields : Row} {base : Ty} (sorted : fields.Sorted) (canonical : base.Canonical)
    (values : ∀ v, (replace v).Canonical) :
    (base.flatten fields).mapVars replace = (base.mapVars replace).flatten (fields.mapVars replace) := by
  cases base
  case record inner => simp only [flatten, mapVars, Row.mapVars_extend]
  case extension base inner =>
    have innerSorted := Row.Canonical.sorted canonical.2
    have grouped := flatten_flatten ((Row.sorted_mapVars replace).mpr innerSorted)
      ((Row.sorted_mapVars replace).mpr sorted) (mapVars_canonical canonical.1 values)
    rw [← Row.mapVars_extend] at grouped
    exact grouped.symm
  all_goals rfl

/-- Replacing variables twice is replacing them once by the replaced types. -/
theorem mapVars_mapVars {type : Ty} (canonical : type.Canonical) (first : ∀ v, (replace v).Canonical)
    (second : ∀ v, (other v).Canonical) :
    (type.mapVars replace).mapVars other = type.mapVars fun v => (replace v).mapVars other := by
  have ofRow : ∀ fields : Row, fields.Canonical →
      (fields.All fun type => type.Canonical →
        (type.mapVars replace).mapVars other = type.mapVars fun v => (replace v).mapVars other) →
      (fields.mapVars replace).mapVars other = fields.mapVars fun v => (replace v).mapVars other := by
    intro fields fieldsCanonical each
    apply Row.toList_injective
    rw [Row.toList_mapVars, Row.toList_mapVars, Row.toList_mapVars, List.map_map]
    apply List.map_congr_left
    intro entry member
    exact congrArg (entry.1, ·) (each entry member ((Row.canonical_iff.mp fieldsCanonical).2 entry member))
  induction type using Ty.induction with
  | atom type basic => simp only [mapVars_of_isAtom basic]
  | var v => rfl
  | tuple left right ih ih' => simp only [mapVars, ih canonical.1, ih' canonical.2]
  | triple left middle right ih ih' ih'' =>
    simp only [mapVars, ih canonical.1, ih' canonical.2.1, ih'' canonical.2.2]
  | list element ih => simp only [mapVars, ih canonical]
  | function source target ih ih' => simp only [mapVars, ih canonical.1, ih' canonical.2]
  | record fields ih => simp only [mapVars, ofRow fields canonical ih]
  | extension base fields ih ih' =>
    have sorted := (Row.sorted_mapVars replace).mpr (Row.Canonical.sorted canonical.2)
    have whole := mapVars_flatten sorted (mapVars_canonical canonical.1 first) second
    rw [ih canonical.1, ofRow fields canonical.2 ih'] at whole
    exact whole

/-- Only the variables that occur matter. -/
theorem mapVars_congr {type : Ty} (same : ∀ v ∈ type.occurrences, replace v = other v) :
    type.mapVars replace = type.mapVars other := by
  induction type using Ty.induction with
  | atom type basic => simp only [mapVars_of_isAtom basic]
  | var v => exact same v (List.mem_singleton_self v)
  | tuple left right ih ih' =>
    simp only [occurrences, List.mem_append, or_imp, forall_and] at same
    simp only [mapVars, ih same.1, ih' same.2]
  | triple left middle right ih ih' ih'' =>
    simp only [occurrences, List.mem_append, or_imp, forall_and] at same
    simp only [mapVars, ih same.1, ih' same.2.1, ih'' same.2.2]
  | list element ih => simp only [mapVars, ih same]
  | function source target ih ih' =>
    simp only [occurrences, List.mem_append, or_imp, forall_and] at same
    simp only [mapVars, ih same.1, ih' same.2]
  | record fields ih =>
    have fieldsSame : fields.mapVars replace = fields.mapVars other :=
      Row.mapVars_eq fun entry member =>
        ih entry member fun v present => same v (Row.mem_occurrences.mpr ⟨entry, member, present⟩)
    simp only [mapVars, fieldsSame]
  | extension base fields ih ih' =>
    simp only [occurrences, List.mem_append, or_imp, forall_and] at same
    have fieldsSame : fields.mapVars replace = fields.mapVars other :=
      Row.mapVars_eq fun entry member =>
        ih' entry member fun v present => same.2 v (Row.mem_occurrences.mpr ⟨entry, member, present⟩)
    simp only [mapVars, ih same.1, fieldsSame]

/-- A flat type stays as it is when variables are replaced by themselves. -/
theorem mapVars_var {type : Ty} (flat : type.Flat) : type.mapVars .var = type := by
  have ofRow : ∀ fields : Row, fields.Flat → (fields.All fun type => type.Flat → type.mapVars .var = type) →
      fields.mapVars .var = fields := by
    intro fields fieldsFlat each
    apply Row.toList_injective
    rw [Row.toList_mapVars]
    refine (List.map_congr_left fun entry member => ?_).trans (List.map_id _)
    exact congrArg (entry.1, ·) (each entry member (Row.flat_iff.mp fieldsFlat entry member))
  induction type using Ty.induction with
  | atom type basic => exact mapVars_of_isAtom basic _
  | var v => rfl
  | tuple left right ih ih' => simp only [mapVars, ih flat.1, ih' flat.2]
  | triple left middle right ih ih' ih'' => simp only [mapVars, ih flat.1, ih' flat.2.1, ih'' flat.2.2]
  | list element ih => simp only [mapVars, ih flat]
  | function source target ih ih' => simp only [mapVars, ih flat.1, ih' flat.2]
  | record fields ih => simp only [mapVars, ofRow fields flat ih]
  | extension base fields ih ih' =>
    simp only [mapVars, ih flat.2.1, ofRow fields flat.2.2 ih']
    exact flatten_of_not_isRecord fields flat.1

/-- A flat type in which no variable is replaced stays as it is. -/
theorem mapVars_eq_self {type : Ty} (flat : type.Flat) (same : ∀ v ∈ type.occurrences, replace v = .var v) :
    type.mapVars replace = type :=
  (mapVars_congr same).trans (mapVars_var flat)

/-- A variable of the result comes from one of the replacements. -/
theorem mem_occurrences_mapVars {type : Ty} {u : TypeVar} (member : u ∈ (type.mapVars replace).occurrences) :
    ∃ v ∈ type.occurrences, u ∈ (replace v).occurrences := by
  have ofRow : ∀ fields : Row,
      (fields.All fun type => u ∈ (type.mapVars replace).occurrences →
        ∃ v ∈ type.occurrences, u ∈ (replace v).occurrences) →
      u ∈ (fields.mapVars replace).occurrences → ∃ v ∈ fields.occurrences, u ∈ (replace v).occurrences := by
    intro fields each present
    obtain ⟨entry, inMapped, inEntry⟩ := Row.mem_occurrences.mp present
    rw [Row.toList_mapVars] at inMapped
    obtain ⟨original, inFields, rfl⟩ := List.mem_map.mp inMapped
    obtain ⟨v, inType, inValue⟩ := each original inFields inEntry
    exact ⟨v, Row.mem_occurrences.mpr ⟨original, inFields, inType⟩, inValue⟩
  induction type using Ty.induction with
  | atom type basic =>
    rw [mapVars_of_isAtom basic, occurrences_of_isAtom basic] at member
    cases member
  | var v => exact ⟨v, List.mem_singleton_self v, member⟩
  | tuple left right ih ih' =>
    simp only [mapVars, occurrences, List.mem_append] at member ⊢
    rcases member with inLeft | inRight
    · obtain ⟨v, inType, inValue⟩ := ih inLeft; exact ⟨v, .inl inType, inValue⟩
    · obtain ⟨v, inType, inValue⟩ := ih' inRight; exact ⟨v, .inr inType, inValue⟩
  | triple left middle right ih ih' ih'' =>
    simp only [mapVars, occurrences, List.mem_append] at member ⊢
    rcases member with inLeft | inMiddle | inRight
    · obtain ⟨v, inType, inValue⟩ := ih inLeft; exact ⟨v, .inl inType, inValue⟩
    · obtain ⟨v, inType, inValue⟩ := ih' inMiddle; exact ⟨v, .inr (.inl inType), inValue⟩
    · obtain ⟨v, inType, inValue⟩ := ih'' inRight; exact ⟨v, .inr (.inr inType), inValue⟩
  | list element ih => exact ih member
  | function source target ih ih' =>
    simp only [mapVars, occurrences, List.mem_append] at member ⊢
    rcases member with inSource | inTarget
    · obtain ⟨v, inType, inValue⟩ := ih inSource; exact ⟨v, .inl inType, inValue⟩
    · obtain ⟨v, inType, inValue⟩ := ih' inTarget; exact ⟨v, .inr inType, inValue⟩
  | record fields ih => exact ofRow fields ih member
  | extension base fields ih ih' =>
    simp only [occurrences, List.mem_append]
    rcases mem_occurrences_flatten member with inBase | inFields
    · obtain ⟨v, inType, inValue⟩ := ih inBase; exact ⟨v, .inl inType, inValue⟩
    · obtain ⟨v, inType, inValue⟩ := ofRow fields ih' inFields; exact ⟨v, .inr inType, inValue⟩

theorem occurs_iff {type : Ty} {id : VarId} : type.occurs id = true ↔ ∃ v ∈ type.occurrences, v.id = id := by
  have ofRow : ∀ fields : Row,
      (fields.All fun type => type.occurs id = true ↔ ∃ v ∈ type.occurrences, v.id = id) →
      (fields.occurs id = true ↔ ∃ v ∈ fields.occurrences, v.id = id) := by
    intro fields each
    induction fields using Row.induction with
    | empty => simp [Row.occurs, Row.occurrences]
    | field name type rest ih =>
      have here := each (name, type) (List.mem_cons_self ..)
      have there := ih fun entry member => each entry (List.mem_cons_of_mem _ member)
      simp only [Row.occurs, Row.occurrences, Bool.or_eq_true, List.mem_append, here, there, or_and_right,
        exists_or]
  induction type using Ty.induction with
  | atom type basic =>
    rw [occurrences_of_isAtom basic]
    cases type <;> simp_all [isAtom, occurs]
  | var v => simp [occurs, occurrences]
  | tuple left right ih ih' => simp only [occurs, occurrences, Bool.or_eq_true, List.mem_append, ih, ih',
      or_and_right, exists_or]
  | triple left middle right ih ih' ih'' => simp only [occurs, occurrences, Bool.or_eq_true, List.mem_append,
      ih, ih', ih'', or_and_right, exists_or, or_assoc]
  | list element ih => exact ih
  | function source target ih ih' => simp only [occurs, occurrences, Bool.or_eq_true, List.mem_append, ih, ih',
      or_and_right, exists_or]
  | record fields ih => exact ofRow fields ih
  | extension base fields ih ih' => simp only [occurs, occurrences, Bool.or_eq_true, List.mem_append, ih,
      ofRow fields ih', or_and_right, exists_or]

/-- Whether the type may stand for a variable with this constraint. -/
def Meets (type : Ty) (constraint : Option Constraint) : Prop :=
  ∀ required, constraint = some required → type.satisfies required = true ∨ type.isConstrainedBy required = true

theorem meets_var {v : TypeVar} {constraint : Option Constraint} (same : v.constraint = constraint) :
    (var v).Meets constraint := by
  intro required restricted
  exact .inr (by simp [isConstrainedBy, same, restricted])

theorem meets_none (type : Ty) : type.Meets none := by
  intro required impossible
  cases impossible

end Ty

/-! ## Valuations -/

/-- A type for every variable. -/
structure Valuation where
  value : TypeVar → Ty
  canonical : ∀ v, (value v).Canonical

/-- Every value of the valuation is flat. -/
def Valuation.Flat (valuation : Valuation) : Prop := ∀ v, (valuation.value v).Flat

/-- The type that a type stands for under a valuation. -/
def Ty.read (valuation : Valuation) (type : Ty) : Ty := type.mapVars valuation.value

def Row.read (valuation : Valuation) (row : Row) : Row := row.mapVars valuation.value

end RowInference
