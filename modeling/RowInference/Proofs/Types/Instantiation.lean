import RowInference.Proofs.Types.Reading
import RowInference.Types.Scheme

/-! # Uses of schemes

A use of a scheme renames its binders, the first one to the next variable of the supply, the second one to the variable
after that, and so on, each with the constraint of its binder. Nothing else changes.
-/

namespace RowInference

/-- The variables for the binders are consecutive. -/
theorem Supply.freshen_eq (supply : Supply) (binders : List TypeVar) :
    supply.freshen binders = (binders.zipIdx supply.issued |>.map fun (binder, index) =>
      (binder.id, ⟨.generated index, binder.constraint⟩), ⟨supply.issued + binders.length⟩) := by
  induction binders generalizing supply with
  | nil => rfl
  | cons binder rest ih =>
    simp only [freshen, fresh, ih]
    simp [List.zipIdx_cons, Nat.add_comm, Nat.add_left_comm]

namespace Scheme

variable {scheme : Scheme} {supply : Supply} {v u : TypeVar}

/-- The variable that stands for the binder of a name in a use. -/
def chosen (scheme : Scheme) (supply : Supply) (id : VarId) : Option TypeVar :=
  (Std.ExtTreeMap.ofList (supply.freshen scheme.binders).1 : Std.ExtTreeMap VarId TypeVar)[id]?

/-- The variable that stands for a variable of the body in a use. -/
def rename (scheme : Scheme) (supply : Supply) (v : TypeVar) : TypeVar :=
  (scheme.chosen supply v.id).getD v

theorem binds_iff {id : VarId} : scheme.binds id = true ↔ ∃ binder ∈ scheme.binders, binder.id = id := by
  simp [binds]

/-- A use issues one variable for each binder. -/
theorem instantiate_issued : (scheme.instantiate supply).2.issued = supply.issued + scheme.binders.length := by
  rw [instantiate]
  split
  · next none =>
    rw [isMono, List.isEmpty_iff] at none
    simp [none]
  · rw [Supply.freshen_eq]

/-- The type of a use is the body with its variables renamed. -/
theorem instantiate_type (flat : scheme.body.Flat) :
    (scheme.instantiate supply).1 = scheme.body.mapVars fun v => .var (scheme.rename supply v) := by
  rw [instantiate]
  split
  · next none =>
    rw [isMono, List.isEmpty_iff] at none
    have same : ∀ v, scheme.rename supply v = v := by
      intro v
      simp [rename, chosen, none, Supply.freshen]
    simp only [same]
    exact (Ty.mapVars_var flat).symm
  · rfl

/-- Of several binders with one identity the last decides. -/
theorem chosen_eq (id : VarId) :
    scheme.chosen supply id = (scheme.binders.zipIdx supply.issued).reverse.findSome? fun entry =>
      if entry.1.id = id then some ⟨.generated entry.2, entry.1.constraint⟩ else none := by
  have look : scheme.chosen supply id = (supply.freshen scheme.binders).1.findSomeRev? fun entry =>
      if compare entry.1 id = .eq then some entry.2 else none := by
    simp [chosen, Std.ExtTreeMap.ofList_eq_insertMany_empty, Std.ExtTreeMap.getElem?_insertMany_list]
  rw [look, List.findSomeRev?_eq_findSome?_reverse, Supply.freshen_eq, ← List.map_reverse, List.findSome?_map]
  congr 1
  funext entry
  simp [Std.LawfulEqCmp.compare_eq_iff_eq]

theorem chosen_of_free {id : VarId} (free : scheme.binds id = false) : scheme.chosen supply id = none := by
  rw [chosen_eq, List.findSome?_eq_none_iff]
  intro ⟨binder, index⟩ member
  have isBinder := (List.mem_zipIdx (List.mem_reverse.mp member)).2.2
  refine if_neg fun same => ?_
  rw [← Bool.not_eq_true, binds_iff] at free
  exact free ⟨binder, isBinder ▸ List.getElem_mem _, same⟩

/-- A bound identity stands for the variable of one of its binders. -/
theorem chosen_of_bound (supply : Supply) {id : VarId} (bound : scheme.binds id = true) :
    ∃ index binder, scheme.binders[index]? = some binder ∧ binder.id = id ∧
      scheme.chosen supply id = some ⟨.generated (supply.issued + index), binder.constraint⟩ := by
  obtain ⟨binder, member, same⟩ := binds_iff.mp bound
  obtain ⟨index, isBinder⟩ := List.getElem?_of_mem member
  have entry : (binder, supply.issued + index) ∈ scheme.binders.zipIdx supply.issued :=
    List.mk_add_mem_zipIdx_iff_getElem?.mpr isBinder
  have found : scheme.chosen supply id ≠ none := by
    rw [chosen_eq]
    intro missing
    have := List.findSome?_eq_none_iff.mp missing _ (List.mem_reverse.mpr entry)
    simp [same] at this
  obtain ⟨fresh, found⟩ := Option.ne_none_iff_exists'.mp found
  rw [found]
  rw [chosen_eq] at found
  obtain ⟨⟨binder, position⟩, entry, picked⟩ := List.exists_of_findSome?_eq_some found
  obtain ⟨past, bounded, isBinder⟩ := List.mem_zipIdx (List.mem_reverse.mp entry)
  obtain ⟨same, picked⟩ := Option.ite_none_right_eq_some.mp picked
  refine ⟨position - supply.issued, binder, ?_, same, ?_⟩
  · rw [isBinder]
    exact List.getElem?_eq_getElem (by omega)
  · rw [Nat.add_sub_cancel' past, ← picked]

theorem rename_of_free (free : scheme.binds v.id = false) : scheme.rename supply v = v := by
  rw [rename, chosen_of_free free, Option.getD_none]

theorem rename_of_bound (supply : Supply) (bound : scheme.binds v.id = true) :
    ∃ index binder, scheme.binders[index]? = some binder ∧ binder.id = v.id ∧
      scheme.rename supply v = ⟨.generated (supply.issued + index), binder.constraint⟩ := by
  obtain ⟨index, binder, isBinder, name, chosen⟩ := chosen_of_bound supply bound
  exact ⟨index, binder, isBinder, name, by rw [rename, chosen, Option.getD_some]⟩

/-! ## Instances -/

/-- The type is the body with types for the binders, each within the class of its binder, and with the given types for
the other variables. -/
def Yields (scheme : Scheme) (free : TypeVar → Ty) (type : Ty) : Prop :=
  ∃ value : VarId → Ty, (∀ binder ∈ scheme.binders, (value binder.id).Meets binder.constraint) ∧
    type = scheme.body.mapVars fun v => if scheme.binds v.id then value v.id else free v

/-- No two binders of one name differ. -/
def Coherent (scheme : Scheme) : Prop :=
  ∀ binder ∈ scheme.binders, ∀ other ∈ scheme.binders, binder.id = other.id → binder.constraint = other.constraint

theorem yields_mono {type : Ty} {free : TypeVar → Ty} : (mono type).Yields free (type.mapVars free) :=
  ⟨fun _ => .unit, by simp [mono], by simp [mono, binds]⟩

/-- A use of a scheme under a valuation that keeps to the constraints of the new variables. -/
theorem yields_instantiate (coherent : scheme.Coherent) (canonical : scheme.body.Canonical) (flat : scheme.body.Flat)
    {valuation : Valuation} (meets : ∀ index binder, scheme.binders[index]? = some binder →
      (valuation.value ⟨.generated (supply.issued + index), binder.constraint⟩).Meets binder.constraint) :
    scheme.Yields valuation.value ((scheme.instantiate supply).1.read valuation) := by
  refine ⟨fun id => ((scheme.chosen supply id).map valuation.value).getD .unit, ?_, ?_⟩
  · intro binder member
    obtain ⟨index, other, isBinder, name, chosen⟩ := chosen_of_bound supply (binds_iff.mpr ⟨binder, member, rfl⟩)
    have same := coherent other (List.mem_of_getElem? isBinder) binder member name
    simp only [chosen, Option.map_some, Option.getD_some]
    rw [← same]
    exact meets index other isBinder
  · have renamed : ∀ v, (Ty.var (scheme.rename supply v)).Canonical := fun _ => trivial
    rw [instantiate_type flat, Ty.read, Ty.mapVars_mapVars canonical renamed valuation.canonical]
    refine Ty.mapVars_congr fun v _ => ?_
    change valuation.value (scheme.rename supply v) = _
    split
    · next bound =>
      obtain ⟨index, binder, _, _, chosen⟩ := chosen_of_bound supply bound
      simp only [rename, chosen, Option.map_some, Option.getD_some]
    · next free => rw [rename_of_free (by simpa using free)]

end Scheme

end RowInference
