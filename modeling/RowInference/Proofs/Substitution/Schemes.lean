import RowInference.Proofs.Substitution.Extension
import RowInference.Proofs.Types.Instantiation

/-! # Substituting in schemes

A substitution leaves the binders of a scheme alone, also those that it has bindings for. Where its bindings do not
mention them, the chains that start outside the binders stay outside, so that the bindings taken away are not missed.
Using the scheme afterwards is then the same as using it first and substituting in the type of the use.
-/

namespace RowInference

open Relation (ReflTransGen)

namespace Substitution

variable {subst : Substitution} {scheme : Scheme} {supply : Supply} {v u : TypeVar}

theorem Canonical.without (canonical : subst.Canonical) (vars : List TypeVar) : (subst.without vars).Canonical :=
  fun _ _ found => canonical (getElem?_of_without found)

/-- No binding mentions one of the variables. -/
def Avoids (subst : Substitution) (vars : List TypeVar) : Prop :=
  ∀ ⦃id : VarId⦄ ⦃type : Ty⦄, subst[id]? = some type → ∀ v ∈ type.occurrences, ∀ var ∈ vars, var.id ≠ v.id

section Avoids

variable {vars : List TypeVar} (avoids : subst.Avoids vars) (outside : ∀ var ∈ vars, var.id ≠ v.id)

include avoids outside

/-- A chain that starts outside the variables stays there, as all its further steps are to mentioned variables. -/
theorem Avoids.reaches {id : VarId} (chain : ReflTransGen subst.Mentions v.id id) : ∀ var ∈ vars, var.id ≠ id := by
  intro var member
  rcases ReflTransGen.cases_tail chain with same | ⟨_, _, type, bound, w, inType, same⟩
  · rw [same]
    exact outside var member
  · rw [← same]
    exact avoids bound w inType var member

/-- No variable that is avoided turns up in what a variable resolves to. -/
theorem Avoids.of_mem_value (member : u ∈ (subst.value v).occurrences) : ∀ var ∈ vars, var.id ≠ u.id := by
  rw [value, apply_var_eq_resolve] at member
  exact avoids.reaches outside (reaches_of_mem_resolve member)

/-- The bindings of variables that are not mentioned are not needed outside them. -/
theorem Avoids.value_without : (subst.without vars).value v = subst.value v := by
  induction vars generalizing subst with
  | nil => rfl
  | cons var rest ih =>
    have fewer : Avoids (subst.erase var.id) rest :=
      fun _ _ found w inType other later =>
        avoids (getElem?_of_erase found) w inType other (List.mem_cons_of_mem _ later)
    have apart : ¬ReflTransGen subst.Mentions v.id var.id :=
      fun chain => avoids.reaches outside chain var (List.mem_cons_self ..) rfl
    rw [without_cons, ih fewer fun other later => outside other (List.mem_cons_of_mem _ later)]
    rw [value, value, apply_var_eq_resolve, apply_var_eq_resolve, resolve_erase apart]

end Avoids

/-- Every bound variable that the supply can issue has been issued. -/
def IssuedBy (subst : Substitution) (supply : Supply) : Prop :=
  ∀ ⦃id : VarId⦄ ⦃type : Ty⦄, subst[id]? = some type → ∀ index, id = .generated index → index < supply.issued

/-- The variables of a use are not bound. -/
theorem IssuedBy.value_rename (issued : subst.IssuedBy supply) (bound : scheme.binds v.id = true) :
    subst.value (scheme.rename supply v) = .var (scheme.rename supply v) := by
  obtain ⟨index, binder, _, _, renamed⟩ := Scheme.rename_of_bound supply bound
  apply value_of_none
  by_contra present
  obtain ⟨type, found⟩ := Option.ne_none_iff_exists'.mp present
  have below := issued found (supply.issued + index) (by rw [renamed])
  omega

theorem not_binds_iff {id : VarId} : scheme.binds id = false ↔ ∀ binder ∈ scheme.binders, binder.id ≠ id := by
  simp [Scheme.binds]

/-- What a variable of the body becomes: a binder is renamed and not touched again, any other variable resolves to a
type without binders. -/
theorem value_renamed (avoids : subst.Avoids scheme.binders) (issued : subst.IssuedBy supply) (v : TypeVar) :
    ((subst.without scheme.binders).value v).mapVars (fun u => .var (scheme.rename supply u)) =
      subst.value (scheme.rename supply v) := by
  cases bound : scheme.binds v.id with
  | true =>
    obtain ⟨binder, member, same⟩ := Scheme.binds_iff.mp bound
    have hidden : (subst.without scheme.binders)[v.id]? = none := same ▸ getElem?_without_of_mem member
    rw [value_of_none hidden, issued.value_rename bound, Ty.mapVars]
  | false =>
    have outside := not_binds_iff.mp bound
    rw [avoids.value_without outside, Scheme.rename_of_free bound]
    refine Ty.mapVars_eq_self (value_flat subst v) fun u inValue => ?_
    rw [Scheme.rename_of_free (not_binds_iff.mpr (avoids.of_mem_value outside inValue))]

/-- Substituting in a scheme and then using it is using it and then substituting, with the same variables issued. The
substitution may have bindings for binders, but must not mention them, and it may be cyclic. -/
theorem instantiate_applyScheme (canonical : subst.Canonical) (bodyCanonical : scheme.body.Canonical)
    (flat : scheme.body.Flat) (avoids : subst.Avoids scheme.binders) (issued : subst.IssuedBy supply) :
    (subst.applyScheme scheme).instantiate supply =
      (subst.apply (scheme.instantiate supply).1, (scheme.instantiate supply).2) := by
  have renamedFlat : (scheme.body.mapVars fun v => .var (scheme.rename supply v)).Flat :=
    Ty.mapVars_flat scheme.body fun _ => trivial
  have renamedCanonical : ∀ v, (Ty.var (scheme.rename supply v)).Canonical := fun _ => trivial
  rw [applyScheme_eq]
  refine Prod.ext ?_ (congrArg Supply.mk ?_)
  · calc
      _ = ((subst.without scheme.binders).apply scheme.body).mapVars fun v => .var (scheme.rename supply v) :=
        Scheme.instantiate_type (apply_flat flat)
      _ = scheme.body.mapVars fun v =>
          ((subst.without scheme.binders).value v).mapVars fun u => .var (scheme.rename supply u) :=
        mapVars_apply (canonical.without _) bodyCanonical renamedCanonical
      _ = scheme.body.mapVars fun v => subst.value (scheme.rename supply v) :=
        Ty.mapVars_congr fun v _ => value_renamed avoids issued v
      _ = (scheme.body.mapVars fun v => .var (scheme.rename supply v)).mapVars subst.value :=
        (Ty.mapVars_mapVars bodyCanonical renamedCanonical (value_canonical canonical)).symm
      _ = subst.apply (scheme.instantiate supply).1 := by
        rw [Scheme.instantiate_type flat, apply_eq_mapVars renamedFlat]
  · rw [Scheme.instantiate_issued, Scheme.instantiate_issued]

/-- The bindings `t0 = { t2 | y : t1 }`, `t1 = [t3]`, `t5 = t1` and `a = Bool`. -/
def rebinding : Substitution :=
  (((singleton (.generated 0) (.extension (.var (.generated 2)) (.field "y" (.var (.generated 1)) .empty))).bind
    (.generated 1) (.list (.var (.generated 3)))).bind (.generated 5) (.var (.generated 1))).bind (.named "a") .bool

/-- The scheme `forall number t5, a. { t0 | x : t5 } -> (a, t1)`. -/
def rebound : Scheme :=
  ⟨[⟨.generated 5, some .number⟩, .named "a"],
    .function (.extension (.var (.generated 0)) (.field "x" (.var ⟨.generated 5, some .number⟩) .empty))
      (.tuple (.var (.named "a")) (.var (.generated 1)))⟩

/-- Both binders are bound by the substitution, and `t0` makes two rows into one. -/
theorem instantiate_applyScheme_rebound :
    let fields : Row := .field "x" (.var ⟨.generated 6, some .number⟩)
      (.field "y" (.list (.var (.generated 3))) .empty)
    let result : Ty := .function (.extension (.var (.generated 2)) fields)
      (.tuple (.var (.generated 7)) (.list (.var (.generated 3))))
    (rebinding.applyScheme rebound).instantiate ⟨6⟩ = (result, ⟨8⟩) := by
  intro fields result
  have canonical : rebinding.Canonical :=
    forall_bind (by simp [Ty.Canonical]) (forall_bind (by simp [Ty.Canonical]) (forall_bind (by simp [Ty.Canonical])
      (forall_singleton (by simp [Ty.Canonical, Row.Canonical, Row.toList]))))
  have bodyCanonical : rebound.body.Canonical := by simp [rebound, Ty.Canonical, Row.Canonical, Row.toList]
  have flat : rebound.body.Flat := by simp [rebound, Ty.Flat, Row.Flat, Ty.isRecord]
  have avoids : rebinding.Avoids rebound.binders :=
    forall_bind (by decide) (forall_bind (by decide) (forall_bind (by decide) (forall_singleton (by decide))))
  have issued : rebinding.IssuedBy ⟨6⟩ :=
    forall_bind (by simp [TypeVar.named]) (forall_bind (by simp [TypeVar.generated])
      (forall_bind (by simp [TypeVar.generated]) (forall_singleton (by simp [TypeVar.generated]))))
  let use : Ty := .function (.extension (.var (.generated 0)) (.field "x" (.var ⟨.generated 6, some .number⟩) .empty))
    (.tuple (.var (.generated 7)) (.var (.generated 1)))
  have used : rebound.instantiate ⟨6⟩ = (use, ⟨8⟩) := by decide +kernel
  have substituted : rebinding.apply use = result := by cbv
  rw [instantiate_applyScheme canonical bodyCanonical flat avoids issued, used, substituted]

end Substitution

end RowInference
