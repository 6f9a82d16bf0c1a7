import Mathlib.Data.List.Permutation
import RowInference.Proofs.Unification.Soundness
import Std.Internal.Do.WP.Lemmas

/-! # Unifiers

What unification finds for two types makes them equal, and nothing else is done on the way: only variables of the two
types, and variables issued by the call itself, are bound, each to a type for its constraint.
-/

namespace RowInference

/-! ## Equations that can be posed -/

/-- The variables of both sides. -/
def Equation.vars (equation : Equation) : List TypeVar :=
  equation.expected.occurrences ++ equation.actual.occurrences

/-- The two sides make sense together: their rows are sorted, no variable is used under two constraints, and all
generated variables have been issued. -/
structure Equation.Coherent (issued : Nat) (equation : Equation) : Prop where
  expected : equation.expected.Canonical
  actual : equation.actual.Canonical
  uniform : ∀ v ∈ equation.vars, ∀ u ∈ equation.vars, v.id = u.id → v.constraint = u.constraint
  issued : ∀ v ∈ equation.vars, v.Below issued

/-- The constraints of the variables in a list, each taken from the first one with its identity. -/
def Signature.ofVars (vars : List TypeVar) : Signature := fun id =>
  (vars.find? fun v => v.id = id).map TypeVar.constraint

theorem Signature.mem_of_ofVars {vars : List TypeVar} {id : VarId} (known : ofVars vars id ≠ none) :
    ∃ v ∈ vars, v.id = id := by
  obtain ⟨constraint, isKnown⟩ := Option.ne_none_iff_exists'.mp known
  obtain ⟨v, found, _⟩ := Option.map_eq_some_iff.mp isKnown
  exact ⟨v, List.mem_of_find?_eq_some found, by simpa using List.find?_some found⟩

namespace Equation.Coherent

variable {issued : Nat} {equation : Equation}

/-- A variable of coherent types has its constraint in their signature. -/
theorem signature_of_mem (coherent : equation.Coherent issued) {v : TypeVar} (member : v ∈ equation.vars) :
    Signature.ofVars equation.vars v.id = some v.constraint := by
  rw [Signature.ofVars]
  cases found : equation.vars.find? fun u => u.id = v.id with
  | none => exact absurd (List.find?_eq_none.mp found v member) (by simp)
  | some u =>
    have same : u.id = v.id := by simpa using List.find?_some found
    rw [Option.map_some, coherent.uniform u (List.mem_of_find?_eq_some found) v member same]

theorem signature_issued (coherent : equation.Coherent issued) :
    (Signature.ofVars equation.vars).Issued issued := by
  intro index known
  obtain ⟨v, member, isIndex⟩ := Signature.mem_of_ofVars known
  exact coherent.issued v member index isIndex

/-- Flat sides are within the constraints of their variables. -/
theorem within (coherent : equation.Coherent issued) (expectedFlat : equation.expected.Flat)
    (actualFlat : equation.actual.Flat) : equation.Within (Signature.ofVars equation.vars) :=
  ⟨⟨coherent.expected, expectedFlat, fun _ inType => coherent.signature_of_mem (List.mem_append_left _ inType)⟩,
    ⟨coherent.actual, actualFlat, fun _ inType => coherent.signature_of_mem (List.mem_append_right _ inType)⟩⟩

theorem symm {expected actual : Ty} (coherent : Coherent issued ⟨expected, actual⟩) :
    Coherent issued ⟨actual, expected⟩ := by
  have swap : ∀ {v : TypeVar}, v ∈ vars ⟨actual, expected⟩ → v ∈ vars ⟨expected, actual⟩ :=
    fun member => List.mem_append.mpr (List.mem_append.mp member).symm
  exact ⟨coherent.actual, coherent.expected, fun v inV u inU => coherent.uniform v (swap inV) u (swap inU),
    fun v member => coherent.issued v (swap member)⟩

end Equation.Coherent

/-- A run of unification on flat types is a unifier for the constraints of their variables. -/
theorem unifier_of_unify {expected actual : Ty} {supply after : Supply} {found : Substitution}
    (coherent : Equation.Coherent supply.issued ⟨expected, actual⟩) (expectedFlat : expected.Flat)
    (actualFlat : actual.Flat) (success : unify expected actual supply = (.ok found, after)) :
    Unifier (Signature.ofVars (Equation.vars ⟨expected, actual⟩)) supply.issued expected actual found
      after.issued := by
  obtain ⟨expectedWithin, actualWithin⟩ := coherent.within expectedFlat actualFlat
  exact (unified_of_run.1 _ _ _ _ _ _ success).unifier coherent.signature_issued expectedWithin actualWithin

/-- A unifier makes the two types equal. -/
theorem Unifier.apply_eq {sig : Signature} {issued issued' : Nat} {expected actual : Ty} {found : Substitution}
    (unifier : Unifier sig issued expected actual found issued') (expectedFlat : expected.Flat)
    (actualFlat : actual.Flat) : found.apply expected = found.apply actual := by
  have proper := unifier.respects.proper
  have same := unifier.unifies (Substitution.solvedBy_valuation proper unifier.settled.acyclic)
  rwa [Substitution.read_valuation proper expectedFlat, Substitution.read_valuation proper actualFlat] at same

/-- What unification of flat types finds makes them equal and is settled. It binds variables of the two types and
variables issued on the way only, and each variable of the two types becomes one for its constraint. -/
theorem unify_sound {expected actual : Ty} {supply after : Supply} {found : Substitution}
    (coherent : Equation.Coherent supply.issued ⟨expected, actual⟩) (expectedFlat : expected.Flat)
    (actualFlat : actual.Flat) (success : unify expected actual supply = (.ok found, after)) :
    found.apply expected = found.apply actual ∧
      (∀ (id : VarId) (type : Ty), found[id]? = some type → ∀ v ∈ type.occurrences, found[v.id]? = none) ∧
      (∀ (id : VarId) (type : Ty), found[id]? = some type → (∃ v ∈ Equation.vars ⟨expected, actual⟩, v.id = id) ∨
        ∃ index, id = .generated index ∧ supply.issued ≤ index ∧ index < after.issued) ∧
      ∀ v ∈ Equation.vars ⟨expected, actual⟩, ∀ required, v.constraint = some required →
        (found.apply (.var v)).isConstrainedBy required = true ∨ (found.apply (.var v)).satisfies required = true := by
  have unifier := unifier_of_unify coherent expectedFlat actualFlat success
  refine ⟨unifier.apply_eq expectedFlat actualFlat, fun id type bound => unifier.settled bound, ?_, ?_⟩
  · intro id type bound
    have known := unifier.respects.key bound
    cases id with
    | named name => exact .inl (Signature.mem_of_ofVars known)
    | generated index =>
      rw [Signature.grow] at known
      split at known
      · next new => exact .inr ⟨index, rfl, new⟩
      · exact .inl (Signature.mem_of_ofVars known)
  · intro v member required restricted
    have known := Signature.sub_grow coherent.signature_issued after.issued (coherent.signature_of_mem member)
    exact ((unifier.respects.value known).2 required restricted).symm

/-- Two open records with different tails. Their common field already says what both tails are. -/
def entwined : Equation where
  expected := .extension (.var (.generated 0)) (.field "c" (.tuple (.var (.generated 0)) (.var (.generated 1)))
    (.field "k" (.var ⟨.generated 3, some .number⟩) .empty))
  actual := .extension (.var (.generated 1)) (.field "c" (.tuple
    (.extension (.var (.generated 2)) (.field "k" .int .empty))
    (.extension (.var (.generated 2)) (.field "k" .int .empty))) .empty)

theorem unify_sound_entwined : ∃ found after, unify entwined.expected entwined.actual ⟨4⟩ = (.ok found, after) ∧
    found.apply entwined.expected = found.apply entwined.actual ∧
    ((found.apply (.var ⟨.generated 3, some .number⟩)).isConstrainedBy .number = true ∨
      (found.apply (.var ⟨.generated 3, some .number⟩)).satisfies .number = true) := by
  have succeeds : (unify entwined.expected entwined.actual ⟨4⟩).1.isOk = true := by
    rw [unify, unifyWithin_of_isRecord _ rfl rfl]
    cbv
  have coherent : entwined.Coherent 4 := by
    refine ⟨?_, ?_, by decide, ?_⟩
    · simp [entwined, Ty.Canonical, Row.Canonical, Row.toList]
      decide
    · simp [entwined, Ty.Canonical, Row.Canonical, Row.toList]
    · simp [entwined, Equation.vars, Ty.occurrences, Row.occurrences, TypeVar.Below, TypeVar.generated]
  have expectedFlat : entwined.expected.Flat := by simp [entwined, Ty.Flat, Row.Flat, Ty.isRecord]
  have actualFlat : entwined.actual.Flat := by simp [entwined, Ty.Flat, Row.Flat, Ty.isRecord]
  obtain ⟨found, after, run⟩ := exists_eq_ok succeeds
  obtain ⟨same, _, _, meets⟩ := unify_sound coherent expectedFlat actualFlat run
  exact ⟨found, after, run, same, meets _ (by decide) .number rfl⟩

end RowInference
