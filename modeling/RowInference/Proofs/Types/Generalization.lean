import RowInference.Proofs.Types.Numbering

/-! # Uses of generalized types

Quantifying the variables of a type that the surroundings do not mention, and then using the scheme, gives back the type
with new variables in the place of these. They are the next ones of the supply, in the order in which the type first
mentions the old ones, so that no two variables become one and no new variable is one of the surroundings.
-/

namespace RowInference

variable {fixed : List VarId} {type : Ty} {supply : Supply} {v u : TypeVar}

/-- The variables of a type that are not fixed, in order of first appearance. -/
def Ty.othersThan (fixed : List VarId) (type : Ty) : List TypeVar := type.freeVars.filter fun v => v.id ∉ fixed

/-- Fixed identities stay; the others are numbered from `start`, in order of first appearance. -/
def Ty.freshLabel (fixed : List VarId) (type : Ty) (start : Nat) (id : VarId) : VarId :=
  if id ∈ fixed then id else .generated (start + ((type.othersThan fixed).map TypeVar.id).idxOf id)

/-- The generated identities among the fixed ones and in the type have been issued. -/
def Supply.Covers (supply : Supply) (fixed : List VarId) (type : Ty) : Prop :=
  ∀ index, type.occurs (.generated index) = true ∨ .generated index ∈ fixed → index < supply.issued

namespace Ty

theorem mem_othersThan : v ∈ type.othersThan fixed ↔ v ∈ type.occurrences ∧ v.id ∉ fixed := by
  rw [othersThan, List.mem_filter, freeVars, List.mem_eraseDups, decide_eq_true_eq]

theorem freshLabel_of_mem {id : VarId} (isFixed : id ∈ fixed) (start : Nat) : type.freshLabel fixed start id = id :=
  if_pos isFixed

theorem nodup_othersThan (uniform : Uniform type.occurrences) : ((type.othersThan fixed).map TypeVar.id).Nodup :=
  uniform.nodup_ids.sublist (List.filter_sublist.map TypeVar.id)

/-- The labels of the others are consecutive. -/
theorem map_freshLabel (uniform : Uniform type.occurrences) (start : Nat) :
    (type.othersThan fixed).map (fun v => type.freshLabel fixed start v.id) =
      (List.range' start (type.othersThan fixed).length).map .generated := by
  refine List.ext_getElem (by simp) fun index bounded bounded' => ?_
  rw [List.length_map] at bounded
  have outside := (mem_othersThan.mp (List.getElem_mem bounded)).2
  have position := (nodup_othersThan uniform).idxOf_getElem index (by rwa [List.length_map])
  rw [List.getElem_map] at position
  rw [List.getElem_map, List.getElem_map, List.getElem_range', freshLabel, if_neg outside, position, Nat.one_mul]

/-- Different identities have different labels. -/
theorem freshLabel_injOn (covers : supply.Covers fixed type) {start : Nat} (later : supply.issued ≤ start) :
    Set.InjOn (type.freshLabel fixed start) {id | type.occurs id = true ∨ id ∈ fixed} := by
  have apart : ∀ id ∈ fixed, ∀ index, id ≠ .generated (start + index) := by
    rintro _ isFixed index rfl
    have := covers _ (.inr isFixed)
    omega
  have listed : ∀ {id : VarId}, type.occurs id = true → id ∉ fixed → id ∈ (type.othersThan fixed).map TypeVar.id := by
    intro id occurs outside
    obtain ⟨v, inType, rfl⟩ := occurs_iff.mp occurs
    exact List.mem_map_of_mem (mem_othersThan.mpr ⟨inType, outside⟩)
  intro left inLeft right inRight same
  by_cases leftFixed : left ∈ fixed <;> by_cases rightFixed : right ∈ fixed
  · rwa [freshLabel_of_mem leftFixed, freshLabel_of_mem rightFixed] at same
  · rw [freshLabel_of_mem leftFixed, freshLabel, if_neg rightFixed] at same
    exact absurd same (apart left leftFixed _)
  · rw [freshLabel_of_mem rightFixed, freshLabel, if_neg leftFixed] at same
    exact absurd same.symm (apart right rightFixed _)
  · rw [freshLabel, freshLabel, if_neg leftFixed, if_neg rightFixed, VarId.generated.injEq,
      Nat.add_left_cancel_iff] at same
    exact (List.idxOf_inj (listed (inLeft.resolve_right leftFixed) leftFixed)).mp same

/-- Every variable that is not fixed gets a number after `start`. -/
theorem freshLabel_of_not_mem (member : v ∈ type.occurrences) (outside : v.id ∉ fixed) (start : Nat) :
    ∃ index < (type.othersThan fixed).length, type.freshLabel fixed start v.id = .generated (start + index) := by
  refine ⟨_, ?_, if_neg outside⟩
  rw [← List.length_map TypeVar.id, List.idxOf_lt_length_iff]
  exact List.mem_map_of_mem (mem_othersThan.mpr ⟨member, outside⟩)

end Ty

/-! ## Uses -/

/-- Generalization quantifies the variables that are not fixed. -/
theorem generalize_binders (fixed : List VarId) (type : Ty) :
    (generalize fixed type).binders = type.othersThan fixed := by
  simp [generalize, Ty.othersThan]

theorem generalize_binds (member : v ∈ type.occurrences) :
    (generalize fixed type).binds v.id = true ↔ v.id ∉ fixed := by
  rw [Scheme.binds_iff, generalize_binders]
  constructor
  · rintro ⟨binder, isBinder, same⟩
    rw [← same]
    exact (Ty.mem_othersThan.mp isBinder).2
  · exact fun outside => ⟨v, Ty.mem_othersThan.mpr ⟨member, outside⟩, rfl⟩

/-- The variable of a use is the original one with a fresh label. -/
theorem rename_generalize (uniform : Uniform type.occurrences) (member : v ∈ type.occurrences) :
    (generalize fixed type).rename supply v = v.relabel (type.freshLabel fixed supply.issued) := by
  by_cases isFixed : v.id ∈ fixed
  · have free : (generalize fixed type).binds v.id = false :=
      Bool.eq_false_iff.mpr fun bound => (generalize_binds member).mp bound isFixed
    rw [Scheme.rename_of_free free, TypeVar.relabel, Ty.freshLabel_of_mem isFixed]
  · obtain ⟨index, binder, isBinder, same, renamed⟩ :=
      Scheme.rename_of_bound supply ((generalize_binds member).mpr isFixed)
    rw [generalize_binders] at isBinder
    obtain ⟨bounded, isBinder⟩ := List.getElem?_eq_some_iff.mp isBinder
    have position := (Ty.nodup_othersThan uniform).idxOf_getElem index (by rwa [List.length_map])
    rw [List.getElem_map, isBinder, same] at position
    have inType := (Ty.mem_othersThan.mp (isBinder ▸ List.getElem_mem bounded)).1
    rw [renamed, uniform binder inType v member same, TypeVar.relabel, Ty.freshLabel, if_neg isFixed, position]

/-- A use of a generalized type has fresh labels, and the supply goes on after them. -/
theorem instantiate_generalize_eq (uniform : Uniform type.occurrences) (flat : type.Flat) :
    (generalize fixed type).instantiate supply =
      (type.relabel (type.freshLabel fixed supply.issued), ⟨supply.issued + (type.othersThan fixed).length⟩) := by
  refine Prod.ext ?_ (congrArg Supply.mk ?_)
  · rw [Scheme.instantiate_type flat]
    exact (Ty.mapVars_eq_relabel fun v member => rename_generalize uniform member).trans
      (congrArg (Ty.relabel _) flat.flattened)
  · rw [Scheme.instantiate_issued, generalize_binders]

theorem occurs_relabel_iff {label : VarId → VarId} {id : VarId} :
    (type.relabel label).occurs id = true ↔ ∃ v ∈ type.occurrences, label v.id = id := by
  simp [Ty.occurs_iff]

/-- A variable that two uses have in common is fixed. -/
theorem mem_of_freshLabel_eq {start start' : Nat} (later : start + (type.othersThan fixed).length ≤ start')
    (inType : v ∈ type.occurrences) (inType' : u ∈ type.occurrences)
    (same : type.freshLabel fixed start v.id = type.freshLabel fixed start' u.id) :
    type.freshLabel fixed start v.id ∈ fixed := by
  by_cases isFixed : v.id ∈ fixed
  · rwa [Ty.freshLabel_of_mem isFixed]
  · by_cases isFixed' : u.id ∈ fixed
    · rwa [same, Ty.freshLabel_of_mem isFixed']
    · obtain ⟨index, bounded, first⟩ := Ty.freshLabel_of_not_mem inType isFixed start
      obtain ⟨index', _, second⟩ := Ty.freshLabel_of_not_mem inType' isFixed' start'
      rw [first, second, VarId.generated.injEq] at same
      omega

/-- A use of a generalized type is the type with its other variables renamed to the next ones of the supply, in order of
first appearance; the supply goes on after them, and a second use shares with the first only what is fixed. -/
theorem instantiate_generalize (uniform : Uniform type.occurrences) (flat : type.Flat)
    (covers : supply.Covers fixed type) :
    ∃ label : VarId → VarId,
      Set.InjOn label {id | type.occurs id = true ∨ id ∈ fixed} ∧
      (∀ id ∈ fixed, label id = id) ∧
      (type.othersThan fixed).map (fun v => label v.id) =
        (List.range' supply.issued (type.othersThan fixed).length).map .generated ∧
      (generalize fixed type).instantiate supply =
        (type.relabel label, ⟨supply.issued + (type.othersThan fixed).length⟩) ∧
      ∀ id, ((generalize fixed type).instantiate supply).1.occurs id = true →
        ((generalize fixed type).instantiate ((generalize fixed type).instantiate supply).2).1.occurs id = true →
        id ∈ fixed := by
  refine ⟨type.freshLabel fixed supply.issued, Ty.freshLabel_injOn covers (Nat.le_refl _),
    fun id isFixed => Ty.freshLabel_of_mem isFixed _, Ty.map_freshLabel uniform _,
      instantiate_generalize_eq uniform flat, ?_⟩
  intro id inFirst inSecond
  rw [instantiate_generalize_eq uniform flat, occurs_relabel_iff] at inFirst
  rw [instantiate_generalize_eq uniform flat, instantiate_generalize_eq uniform flat, occurs_relabel_iff] at inSecond
  obtain ⟨v, inType, rfl⟩ := inFirst
  obtain ⟨u, inType', same⟩ := inSecond
  exact mem_of_freshLabel_eq (Nat.le_refl _) inType inType' same.symm

/-- An update of a record whose rest is fixed by the surroundings. -/
def recordUpdate : Ty :=
  .function (.var ⟨.generated 3, some .number⟩) (.function
    (.extension (.var (.generated 1)) (.field "x" (.var (.named "old")) (.field "y" (.var (.generated 0)) .empty)))
    (.extension (.var (.generated 1)) (.field "x" (.var ⟨.generated 3, some .number⟩)
      (.field "y" (.var (.generated 0)) .empty))))

theorem instantiate_generalize_update : ∃ label : VarId → VarId,
    Set.InjOn label {id | recordUpdate.occurs id = true ∨ id ∈ [VarId.generated 1]} ∧
    (∀ id ∈ [VarId.generated 1], label id = id) ∧
    (recordUpdate.othersThan [.generated 1]).map (fun v => label v.id) = [.generated 4, .generated 5, .generated 6] ∧
    (generalize [.generated 1] recordUpdate).instantiate ⟨4⟩ = (recordUpdate.relabel label, ⟨7⟩) := by
  have uniform : Uniform recordUpdate.occurrences := by decide
  have flat : recordUpdate.Flat := by simp [recordUpdate, Ty.Flat, Row.Flat, Ty.isRecord]
  have covers : Supply.Covers ⟨4⟩ [.generated 1] recordUpdate := by
    intro index
    simp [recordUpdate, Ty.occurs, Row.occurs, TypeVar.generated, TypeVar.named]
    omega
  obtain ⟨label, injective, kept, consecutive, used, _⟩ := instantiate_generalize uniform flat covers
  exact ⟨label, injective, kept, consecutive, used⟩

end RowInference
