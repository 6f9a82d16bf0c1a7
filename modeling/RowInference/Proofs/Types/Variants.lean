import RowInference.Proofs.Types.Shift
import RowInference.Types.Normal

/-! # Schemes that differ in numbers only

A scheme without free variables says the same whatever the numbers of its binders are: a use of it has the same type,
and its normal form is the same. Uses with a later supply have a shifted type.
-/

namespace RowInference

variable {offset : Nat}

/-- A type without generated variables stays as it is. -/
theorem Ty.shift_eq_self {type : Ty} (fixed : ∀ v ∈ type.occurrences, v.shift offset = v) :
    type.shift offset = type := by
  rw [Ty.shift_eq_relabel]
  exact (Ty.relabel_congr type fun v member => congrArg TypeVar.id (fixed v member)).trans type.relabel_id

theorem eraseDups_map {α β : Type} [DecidableEq α] [DecidableEq β] {change : α → β}
    (injective : Function.Injective change) (elements : List α) :
    (elements.map change).eraseDups = elements.eraseDups.map change := by
  match elements with
  | [] => rfl
  | element :: rest =>
    rw [List.map_cons, List.eraseDups_cons, List.eraseDups_cons, List.map_cons, List.filter_map,
      eraseDups_map injective]
    congr 4
    funext other
    simp [injective.eq_iff]
termination_by elements.length
decreasing_by exact Nat.lt_succ_of_le (List.length_filter_le _ _)

theorem Ty.freeVars_shift (type : Ty) : (type.shift offset).freeVars = type.freeVars.map (TypeVar.shift offset) := by
  rw [freeVars, freeVars, occurrences_shift, eraseDups_map fun _ _ => TypeVar.shift_inj.mp]

namespace Scheme

variable {scheme : Scheme} {supply : Supply}

def shift (offset : Nat) (scheme : Scheme) : Scheme :=
  ⟨scheme.binders.map (TypeVar.shift offset), scheme.body.shift offset⟩

/-- All variables of the body are quantified. -/
def NoFree (scheme : Scheme) : Prop := ∀ v ∈ scheme.body.occurrences, scheme.binds v.id = true

/-- Closing and shifting can be interchanged. -/
theorem closed_shift (type : Ty) : closed (type.shift offset) = (closed type).shift offset := by
  rw [closed, closed, shift, Ty.freeVars_shift]

theorem closed_noFree (type : Ty) : (closed type).NoFree :=
  fun v member => binds_iff.mpr ⟨v, List.mem_eraseDups.mpr member, rfl⟩

/-! ## Uses -/

theorem chosen_shift (id : VarId) :
    (scheme.shift offset).chosen supply (id.shift offset) = scheme.chosen supply id := by
  rw [chosen_eq, chosen_eq, shift, List.zipIdx_map, ← List.map_reverse, List.findSome?_map]
  congr 1
  funext entry
  simp

/-- A later supply gives shifted variables. -/
theorem chosen_supply_shift (id : VarId) :
    scheme.chosen (supply.shift offset) id = (scheme.chosen supply id).map (TypeVar.shift offset) := by
  have later : scheme.binders.zipIdx (supply.shift offset).issued
      = (scheme.binders.zipIdx supply.issued).map fun entry => (entry.1, entry.2 + offset) := by
    rw [Supply.shift, Nat.add_comm, ← List.map_snd_add_zipIdx_eq_zipIdx]
    simp [Prod.map, Nat.add_comm]
  rw [chosen_eq, chosen_eq, later, ← List.map_reverse, List.findSome?_map, List.map_findSome?]
  congr 1
  funext entry
  dsimp only [Function.comp]
  split <;> rfl

/-- A use does not depend on the numbers of the quantified variables. -/
theorem rename_shift {v : TypeVar} (bound : scheme.binds v.id = true) :
    (scheme.shift offset).rename supply (v.shift offset) = scheme.rename supply v := by
  obtain ⟨_, _, _, _, found⟩ := chosen_of_bound supply bound
  rw [rename, rename, TypeVar.shift_id, chosen_shift, found, Option.getD_some, Option.getD_some]

theorem rename_supply_shift {v : TypeVar} (bound : scheme.binds v.id = true) :
    scheme.rename (supply.shift offset) v = (scheme.rename supply v).shift offset := by
  obtain ⟨_, _, _, _, found⟩ := chosen_of_bound supply bound
  rw [rename, rename, chosen_supply_shift, found, Option.map_some, Option.getD_some, Option.getD_some]

/-- A use in one equation: without binders it is the body as it is. -/
theorem instantiate_eq (scheme : Scheme) (supply : Supply) : scheme.instantiate supply =
    (if scheme.binders = [] then scheme.body else scheme.body.mapVars fun v => .var (scheme.rename supply v),
      ⟨supply.issued + scheme.binders.length⟩) := by
  rw [instantiate]
  by_cases none : scheme.binders = []
  · simp [isMono, none]
  · rw [if_neg (by simpa [isMono] using none), if_neg none]
    refine Prod.ext rfl ?_
    rw [Supply.freshen_eq]

theorem NoFree.shift_body (noFree : scheme.NoFree) (none : scheme.binders = []) :
    scheme.body.shift offset = scheme.body := by
  refine Ty.shift_eq_self fun v member => ?_
  have bound := noFree v member
  simp [binds, none] at bound

/-- The numbers of the binders do not matter for a use. -/
theorem NoFree.instantiate_shift (noFree : scheme.NoFree) (supply : Supply) :
    (scheme.shift offset).instantiate supply = scheme.instantiate supply := by
  rw [instantiate_eq, instantiate_eq]
  simp only [shift, List.map_eq_nil_iff, List.length_map]
  split
  · next none => rw [noFree.shift_body none]
  · rw [Ty.mapVars_shift]
    congr 1
    exact Ty.mapVars_congr fun v member => congrArg Ty.var (rename_shift (noFree v member))

/-- A use with a later supply has a shifted type. -/
theorem NoFree.instantiate_supply_shift (noFree : scheme.NoFree) (supply : Supply) :
    scheme.instantiate (supply.shift offset) =
      ((scheme.instantiate supply).1.shift offset, (scheme.instantiate supply).2.shift offset) := by
  rw [instantiate_eq, instantiate_eq]
  refine Prod.ext ?_ (by simp [Supply.shift, Nat.add_right_comm])
  dsimp only
  split
  · next none => rw [noFree.shift_body none]
  · rw [Ty.shift_mapVars]
    exact Ty.mapVars_congr fun v member => congrArg Ty.var (rename_supply_shift (noFree v member))

end Scheme

/-! ## Normal forms -/

namespace Renaming

/-- Two tables that give the same new variables, the second one to shifted variables. -/
structure Shifted (offset : Nat) (table other : Renaming) : Prop where
  chosen : ∀ id : VarId, other.chosen[id.shift offset]? = table.chosen[id]?
  generated : other.generated = table.generated
  named : other.named = table.named

variable {table other : Renaming}

/-- Meeting a variable and its shifted copy keeps the tables alike. -/
theorem Shifted.meet (shifted : Shifted offset table other) (v : TypeVar) :
    Shifted offset (table.meet v) (other.meet (v.shift offset)) := by
  have known : other.chosen.contains (v.id.shift offset) = table.chosen.contains v.id := by
    rw [← Std.ExtTreeMap.isSome_getElem?_eq_contains, shifted.chosen, Std.ExtTreeMap.isSome_getElem?_eq_contains]
  have insert : ∀ (fresh : TypeVar) (id : VarId), (other.chosen.insert (v.id.shift offset) fresh)[id.shift offset]?
      = (table.chosen.insert v.id fresh)[id]? := by
    intro fresh id
    simp [Std.ExtTreeMap.getElem?_insert, Std.LawfulEqCmp.compare_eq_iff_eq, shifted.chosen]
  rw [Renaming.meet, Renaming.meet, TypeVar.shift_id, known]
  split
  · exact shifted
  · obtain ⟨id, constraint⟩ := v
    cases id with
    | generated index =>
      rw [VarId.shift] at insert ⊢
      exact ⟨fun id => by simpa [shifted.generated] using insert _ id, by simp [shifted.generated], shifted.named⟩
    | named name =>
      rw [VarId.shift] at insert ⊢
      exact ⟨fun id => by simpa [shifted.named] using insert _ id, shifted.generated, by simp [shifted.named]⟩

theorem Shifted.meetAll (shifted : Shifted offset table other) (vars : List TypeVar) :
    Shifted offset (vars.foldl Renaming.meet table) ((vars.map (TypeVar.shift offset)).foldl Renaming.meet other) := by
  induction vars generalizing table other with
  | nil => exact shifted
  | cons v rest ih => exact ih (shifted.meet v)

theorem contains_meet (table : Renaming) (v : TypeVar) {id : VarId} :
    (table.meet v).chosen.contains id = true ↔ table.chosen.contains id = true ∨ v.id = id := by
  rw [meet]
  split
  · next known => exact ⟨.inl, fun either => either.elim (fun old => old) fun same => same ▸ known⟩
  · cases v.id <;> simp [Std.ExtTreeMap.contains_insert, Std.LawfulEqCmp.compare_eq_iff_eq, or_comm]

theorem contains_meetAll (vars : List TypeVar) (table : Renaming) {id : VarId} :
    (vars.foldl meet table).chosen.contains id = true ↔ table.chosen.contains id = true ∨ ∃ v ∈ vars, v.id = id := by
  induction vars generalizing table with
  | nil => simp
  | cons v rest ih =>
    rw [List.foldl_cons, ih, contains_meet, or_assoc]
    simp

/-- A known variable and its shifted copy have the same new variable. -/
theorem Shifted.rename (shifted : Shifted offset table other) {v : TypeVar}
    (known : table.chosen.contains v.id = true) :
    other.rename (v.shift offset) = table.rename v := by
  rw [← Std.ExtTreeMap.isSome_getElem?_eq_contains] at known
  obtain ⟨fresh, found⟩ := Option.isSome_iff_exists.mp known
  rw [Renaming.rename, Renaming.rename, TypeVar.shift_id, shifted.chosen, found, Option.getD_some, Option.getD_some]

end Renaming

/-- The numbers of the variables do not matter for the normal form. -/
theorem Scheme.normalize_shift (scheme : Scheme) : (scheme.shift offset).normalize = scheme.normalize := by
  have shifted : Renaming.Shifted offset scheme.canonicalNames (scheme.shift offset).canonicalNames := by
    rw [canonicalNames, canonicalNames, shift, Ty.freeVars_shift]
    exact (Renaming.Shifted.meetAll ⟨fun id => by simp, rfl, rfl⟩ _).meetAll _
  have known : ∀ v ∈ scheme.binders ++ scheme.body.occurrences,
      (scheme.shift offset).canonicalNames.rename (v.shift offset) = scheme.canonicalNames.rename v := by
    intro v member
    refine shifted.rename ?_
    rw [canonicalNames, Renaming.contains_meetAll, Renaming.contains_meetAll]
    rcases List.mem_append.mp member with isBinder | inBody
    · exact .inr ⟨v, isBinder, rfl⟩
    · exact .inl (.inr ⟨v, List.mem_eraseDups.mpr inBody, rfl⟩)
  obtain ⟨ofBinders, ofBody⟩ := List.forall_mem_append.mp known
  have binders : (scheme.shift offset).binders.map (scheme.shift offset).canonicalNames.rename
      = scheme.binders.map scheme.canonicalNames.rename := by
    rw [shift, List.map_map]
    exact List.map_congr_left ofBinders
  have body : ((scheme.shift offset).body.mapVars fun v => .var ((scheme.shift offset).canonicalNames.rename v))
      = scheme.body.mapVars fun v => .var (scheme.canonicalNames.rename v) := by
    rw [shift, Ty.mapVars_shift]
    exact Ty.mapVars_congr fun v member => congrArg Ty.var (ofBody v member)
  rw [normalize, normalize, binders, body]

end RowInference
