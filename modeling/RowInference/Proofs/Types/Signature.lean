import RowInference.Proofs.Types.Reading

/-! # Variables in play

A signature says which variables are in play and under which constraint each of them is used. A type is within a
signature when it is canonical and flat and uses only such variables, each with its constraint.
-/

namespace RowInference

/-- A generated variable has an index below a number. -/
def TypeVar.Below (issued : Nat) (v : TypeVar) : Prop := ∀ index, v.id = .generated index → index < issued

/-- The constraint of each variable in play. -/
abbrev Signature := VarId → Option (Option Constraint)

namespace Signature

variable {sig wider : Signature}

/-- Every generated variable in play has been issued. -/
def Issued (sig : Signature) (issued : Nat) : Prop := ∀ index, sig (.generated index) ≠ none → index < issued

/-- The second signature has at least the variables of the first. -/
def Sub (sig wider : Signature) : Prop :=
  ∀ ⦃id : VarId⦄ ⦃constraint⦄, sig id = some constraint → wider id = some constraint

theorem Sub.refl (sig : Signature) : sig.Sub sig := fun _ _ known => known

theorem Sub.trans {widest : Signature} (first : sig.Sub wider) (second : wider.Sub widest) : sig.Sub widest :=
  fun _ _ known => second (first known)

theorem Issued.mono {issued later : Nat} (below : sig.Issued issued) (le : issued ≤ later) : sig.Issued later :=
  fun index known => Nat.lt_of_lt_of_le (below index known) le

def add (sig : Signature) (v : TypeVar) : Signature :=
  fun id => if id = v.id then some v.constraint else sig id

@[simp] theorem add_self (sig : Signature) (v : TypeVar) : sig.add v v.id = some v.constraint := if_pos rfl

theorem Sub.add {v : TypeVar} (new : sig v.id = none) : sig.Sub (sig.add v) := by
  intro id constraint known
  have different : id ≠ v.id := by
    rintro rfl
    rw [new] at known
    cases known
  rw [Signature.add, if_neg different, known]

/-- Add the unconstrained variables with an index between two numbers. -/
def grow (sig : Signature) (low high : Nat) : Signature
  | .generated index => if low ≤ index ∧ index < high then some none else sig (.generated index)
  | .named name => sig (.named name)

@[simp] theorem grow_self (sig : Signature) (issued : Nat) : sig.grow issued issued = sig := by
  funext id
  cases id with
  | generated index => simp only [grow]; rw [if_neg]; omega
  | named name => rfl

/-- Variables can be added in two portions. -/
theorem grow_grow (sig : Signature) {low middle high : Nat} (first : low ≤ middle) (second : middle ≤ high) :
    (sig.grow low middle).grow middle high = sig.grow low high := by
  funext id
  cases id with
  | generated index =>
    simp only [grow]
    split
    · rw [if_pos]; omega
    · split
      · rw [if_pos]; omega
      · rw [if_neg]; omega
  | named name => rfl

theorem grow_new {low high index : Nat} (above : low ≤ index) (below : index < high) :
    sig.grow low high (.generated index) = some none := if_pos ⟨above, below⟩

/-- New variables change nothing about those in play. -/
theorem sub_grow {low : Nat} (issued : sig.Issued low) (high : Nat) : sig.Sub (sig.grow low high) := by
  intro id constraint known
  cases id with
  | generated index =>
    have below := issued index (by rw [known]; exact Option.some_ne_none _)
    rw [grow, if_neg (by omega), known]
  | named name => exact known

/-- After variables are added all in play have been issued. -/
theorem Issued.grow {low high : Nat} (issued : sig.Issued low) (le : low ≤ high) :
    (sig.grow low high).Issued high := by
  intro index known
  rw [Signature.grow] at known
  split at known
  · omega
  · exact Nat.lt_of_lt_of_le (issued index known) le

theorem Sub.grow (sub : sig.Sub wider) (low high : Nat) : (sig.grow low high).Sub (wider.grow low high) := by
  intro id constraint known
  cases id with
  | generated index =>
    simp only [Signature.grow] at known ⊢
    split at known
    · next bounds => rw [if_pos bounds, known]
    · next bounds => rw [if_neg bounds, sub known]
  | named name => exact sub known

open Classical in
/-- The variables with a property. -/
noncomputable def restrict (sig : Signature) (keep : VarId → Prop) : Signature :=
  fun id => if keep id then sig id else none

theorem restrict_of {keep : VarId → Prop} {id : VarId} (kept : keep id) : sig.restrict keep id = sig id :=
  if_pos kept

theorem restrict_sub (sig : Signature) (keep : VarId → Prop) : (sig.restrict keep).Sub sig := by
  intro id constraint known
  rw [restrict] at known
  split at known
  · exact known
  · cases known

theorem Issued.restrict {issued : Nat} (below : sig.Issued issued) (keep : VarId → Prop) :
    (sig.restrict keep).Issued issued := by
  intro index known
  obtain ⟨constraint, known⟩ := Option.ne_none_iff_exists'.mp known
  exact below index (by rw [restrict_sub sig keep known]; exact Option.some_ne_none _)

/-- A variable that came in by growing or had the property. -/
theorem of_grow_restrict {keep : VarId → Prop} {low high : Nat} {id : VarId}
    (known : (sig.restrict keep).grow low high id ≠ none) :
    keep id ∨ ∃ index, id = .generated index ∧ low ≤ index ∧ index < high := by
  have kept : ∀ {id : VarId}, sig.restrict keep id ≠ none → keep id := by
    intro id known
    by_contra other
    exact known (if_neg other)
  cases id with
  | generated index =>
    simp only [grow] at known
    split at known
    · next bounds => exact .inr ⟨index, rfl, bounds⟩
    · exact .inl (kept known)
  | named name => exact .inl (kept known)

end Signature

/-! ## Types within a signature -/

/-- A canonical and flat type with known variables. -/
structure Ty.Within (sig : Signature) (type : Ty) : Prop where
  canonical : type.Canonical
  flat : type.Flat
  known : ∀ v ∈ type.occurrences, sig v.id = some v.constraint

/-- Fields in order, with types within the signature. -/
structure Row.Within (sig : Signature) (row : Row) : Prop where
  sorted : row.Sorted
  types : row.All (Ty.Within sig)

namespace Ty

variable {sig wider : Signature}

theorem Within.mono {type : Ty} (within : type.Within sig) (sub : sig.Sub wider) : type.Within wider :=
  ⟨within.canonical, within.flat, fun v inType => sub (within.known v inType)⟩

theorem within_of_isAtom {type : Ty} (basic : type.isAtom = true) : type.Within sig :=
  ⟨canonical_of_isAtom basic, flat_of_isAtom basic, by simp [occurrences_of_isAtom basic]⟩

@[simp] theorem within_var {v : TypeVar} : (var v).Within sig ↔ sig v.id = some v.constraint :=
  ⟨fun within => within.known v (List.mem_singleton_self v), fun known =>
    ⟨trivial, trivial, fun u member => by rw [List.mem_singleton.mp member]; exact known⟩⟩

@[simp] theorem within_tuple {first second : Ty} :
    (tuple first second).Within sig ↔ first.Within sig ∧ second.Within sig := by
  constructor
  · rintro ⟨canonical, flat, known⟩
    exact ⟨⟨canonical.1, flat.1, fun v inType => known v (List.mem_append_left _ inType)⟩,
      ⟨canonical.2, flat.2, fun v inType => known v (List.mem_append_right _ inType)⟩⟩
  · rintro ⟨left, right⟩
    exact ⟨⟨left.canonical, right.canonical⟩, ⟨left.flat, right.flat⟩,
      fun v inType => (List.mem_append.mp inType).elim (left.known v) (right.known v)⟩

@[simp] theorem within_function {source target : Ty} :
    (function source target).Within sig ↔ source.Within sig ∧ target.Within sig := by
  constructor
  · rintro ⟨canonical, flat, known⟩
    exact ⟨⟨canonical.1, flat.1, fun v inType => known v (List.mem_append_left _ inType)⟩,
      ⟨canonical.2, flat.2, fun v inType => known v (List.mem_append_right _ inType)⟩⟩
  · rintro ⟨left, right⟩
    exact ⟨⟨left.canonical, right.canonical⟩, ⟨left.flat, right.flat⟩,
      fun v inType => (List.mem_append.mp inType).elim (left.known v) (right.known v)⟩

@[simp] theorem within_triple {first second third : Ty} :
    (triple first second third).Within sig ↔ first.Within sig ∧ second.Within sig ∧ third.Within sig := by
  constructor
  · rintro ⟨canonical, flat, known⟩
    exact ⟨⟨canonical.1, flat.1, fun v inType => known v (List.mem_append_left _ inType)⟩,
      ⟨canonical.2.1, flat.2.1, fun v inType => known v (List.mem_append_right _ (List.mem_append_left _ inType))⟩,
      ⟨canonical.2.2, flat.2.2, fun v inType => known v (List.mem_append_right _ (List.mem_append_right _ inType))⟩⟩
  · rintro ⟨left, middle, right⟩
    refine ⟨⟨left.canonical, middle.canonical, right.canonical⟩, ⟨left.flat, middle.flat, right.flat⟩, ?_⟩
    intro v inType
    rcases List.mem_append.mp inType with inFirst | inOthers
    · exact left.known v inFirst
    · exact (List.mem_append.mp inOthers).elim (middle.known v) (right.known v)

@[simp] theorem within_list {element : Ty} : (list element).Within sig ↔ element.Within sig :=
  ⟨fun within => ⟨within.canonical, within.flat, within.known⟩,
    fun within => ⟨within.canonical, within.flat, within.known⟩⟩

@[simp] theorem within_record {fields : Row} : (record fields).Within sig ↔ fields.Within sig := by
  constructor
  · rintro ⟨canonical, flat, known⟩
    obtain ⟨sorted, types⟩ := Row.canonical_iff.mp canonical
    exact ⟨sorted, fun entry member => ⟨types entry member, Row.flat_iff.mp flat entry member,
      fun v inType => known v (Row.mem_occurrences.mpr ⟨entry, member, inType⟩)⟩⟩
  · rintro ⟨sorted, types⟩
    refine ⟨Row.canonical_iff.mpr ⟨sorted, fun entry member => (types entry member).canonical⟩,
      Row.flat_iff.mpr fun entry member => (types entry member).flat, ?_⟩
    intro v inFields
    obtain ⟨entry, member, inType⟩ := Row.mem_occurrences.mp inFields
    exact (types entry member).known v inType

@[simp] theorem within_extension {base : Ty} {fields : Row} :
    (extension base fields).Within sig ↔ base.isRecord = false ∧ base.Within sig ∧ fields.Within sig := by
  constructor
  · rintro ⟨canonical, flat, known⟩
    have ofRecord : (record fields).Within sig :=
      ⟨canonical.2, flat.2.2, fun v inType => known v (List.mem_append_right _ inType)⟩
    exact ⟨flat.1, ⟨canonical.1, flat.2.1, fun v inType => known v (List.mem_append_left _ inType)⟩,
      within_record.mp ofRecord⟩
  · rintro ⟨notRecord, ofBase, ofFields⟩
    have ofRecord : (record fields).Within sig := within_record.mpr ofFields
    refine ⟨⟨ofBase.canonical, ofRecord.canonical⟩, ⟨notRecord, ofBase.flat, ofRecord.flat⟩, ?_⟩
    intro v inType
    exact (List.mem_append.mp inType).elim (ofBase.known v) (ofRecord.known v)

end Ty

namespace Row

variable {sig wider : Signature}

theorem Within.mono {row : Row} (within : row.Within sig) (sub : sig.Sub wider) : row.Within wider :=
  ⟨within.sorted, fun entry member => (within.types entry member).mono sub⟩

theorem Within.without {row : Row} (within : row.Within sig) (other : Row) : (row.without other).Within sig :=
  ⟨within.sorted.without other, within.types.without other⟩

end Row

/-- Replacing known variables by types within a signature. -/
theorem Ty.Within.mapVars {sig wider : Signature} {type : Ty} {replace : TypeVar → Ty} (within : type.Within sig)
    (values : ∀ v, sig v.id = some v.constraint → (replace v).Within wider)
    (proper : ∀ v, (replace v).Canonical ∧ (replace v).Flat) : (type.mapVars replace).Within wider := by
  refine ⟨mapVars_canonical within.canonical fun v => (proper v).1, mapVars_flat type fun v => (proper v).2, ?_⟩
  intro u inResult
  obtain ⟨v, inType, inValue⟩ := mem_occurrences_mapVars inResult
  exact (values v (within.known v inType)).known u inValue

end RowInference
