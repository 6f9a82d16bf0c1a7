import RowInference.Proofs.Substitution.Application

/-! # Expanding along the bindings

Application is described here by rules: a bound variable is replaced by the expansion of its binding, unless it is
already being expanded. Nothing in the rules bounds the expansion but the list of active variables, and the bindings may
well be cyclic. Yet every type has exactly one expansion, and that is what application returns. A bound variable is left
in it only if it lies on a cycle of bindings.
-/

namespace RowInference

open Relation (TransGen)

namespace Substitution

variable {subst remaining : Substitution} {active : List VarId}

mutual

/-- The second type is the expansion of the first, inside the expansions of the active variables. -/
inductive Expands (subst : Substitution) : List VarId → Ty → Ty → Prop
  | atom {active : List VarId} {type : Ty} (atomic : type.isAtom = true) : Expands subst active type type
  | unbound {active : List VarId} {v : TypeVar} (missing : subst[v.id]? = none) : Expands subst active (.var v) (.var v)
  | active {active : List VarId} {v : TypeVar} (met : v.id ∈ active) : Expands subst active (.var v) (.var v)
  | bound {active : List VarId} {v : TypeVar} {binding result : Ty} (found : subst[v.id]? = some binding)
      (new : v.id ∉ active) (within : Expands subst (v.id :: active) binding result) :
      Expands subst active (.var v) result
  | tuple {active : List VarId} {first second first' second' : Ty} (left : Expands subst active first first')
      (right : Expands subst active second second') : Expands subst active (.tuple first second) (.tuple first' second')
  | triple {active : List VarId} {first second third first' second' third' : Ty}
      (left : Expands subst active first first') (middle : Expands subst active second second')
      (right : Expands subst active third third') :
      Expands subst active (.triple first second third) (.triple first' second' third')
  | list {active : List VarId} {element element' : Ty} (inner : Expands subst active element element') :
      Expands subst active (.list element) (.list element')
  | function {active : List VarId} {source target source' target' : Ty} (domain : Expands subst active source source')
      (codomain : Expands subst active target target') :
      Expands subst active (.function source target) (.function source' target')
  | record {active : List VarId} {fields fields' : Row} (each : ExpandsRow subst active fields fields') :
      Expands subst active (.record fields) (.record fields')
  | extension {active : List VarId} {base base' : Ty} {fields fields' : Row} (below : Expands subst active base base')
      (each : ExpandsRow subst active fields fields') :
      Expands subst active (.extension base fields) (base'.flatten fields')

/-- The types of the fields are expanded one by one. -/
inductive ExpandsRow (subst : Substitution) : List VarId → Row → Row → Prop
  | empty {active : List VarId} : ExpandsRow subst active .empty .empty
  | field {active : List VarId} {name : String} {type type' : Ty} {rest rest' : Row}
      (here : Expands subst active type type') (there : ExpandsRow subst active rest rest') :
      ExpandsRow subst active (.field name type rest) (.field name type' rest')

end

/-- The bindings of the active variables are out of sight, and only those. -/
def Hides (subst : Substitution) (active : List VarId) (remaining : Substitution) : Prop :=
  ∀ id, remaining[id]? = if id ∈ active then none else subst[id]?

theorem hides_nil (subst : Substitution) : subst.Hides [] subst := by
  intro id
  rw [if_neg List.not_mem_nil]

/-- A further variable becomes active. -/
theorem Hides.erase (hides : subst.Hides active remaining) (id : VarId) :
    subst.Hides (id :: active) (remaining.erase id) := by
  intro other
  by_cases same : id = other
  · subst same
    simp
  · rw [getElem?_erase_of_ne same, hides other]
    simp [Ne.symm same]

/-- What is not active is in sight. -/
theorem Hides.getElem?_of_not_mem (hides : subst.Hides active remaining) {id : VarId} (new : id ∉ active) :
    remaining[id]? = subst[id]? := by
  rw [hides id, if_neg new]

mutual

/-- The rules allow no other result than that of resolving in what is in sight. -/
theorem Expands.eq_resolve {remaining : Substitution} {active : List VarId} {type result : Ty}
    (hides : subst.Hides active remaining) : subst.Expands active type result → result = remaining.resolve type
  | .atom atomic => by rw [resolve_eq_mapVars, Ty.mapVars_of_isAtom atomic]
  | .unbound missing => by
    rw [resolve_var_of_none]
    simp [hides _, missing]
  | .active met => by
    rw [resolve_var_of_none]
    simp [hides _, met]
  | .bound found new within => by
    rw [resolve_var_of_some ((hides.getElem?_of_not_mem new).trans found)]
    exact within.eq_resolve (hides.erase _)
  | .tuple left right => by rw [resolve, ← left.eq_resolve hides, ← right.eq_resolve hides]
  | .triple left middle right => by
    rw [resolve, ← left.eq_resolve hides, ← middle.eq_resolve hides, ← right.eq_resolve hides]
  | .list inner => by rw [resolve, ← inner.eq_resolve hides]
  | .function domain codomain => by rw [resolve, ← domain.eq_resolve hides, ← codomain.eq_resolve hides]
  | .record each => by rw [resolve, ← each.eq_resolveRow hides]
  | .extension below each => by rw [resolve, ← below.eq_resolve hides, ← each.eq_resolveRow hides]

theorem ExpandsRow.eq_resolveRow {remaining : Substitution} {active : List VarId} {fields fields' : Row}
    (hides : subst.Hides active remaining) :
    subst.ExpandsRow active fields fields' → fields' = remaining.resolveRow fields
  | .empty => by rw [resolveRow]
  | .field here there => by rw [resolveRow, ← here.eq_resolve hides, ← there.eq_resolveRow hides]

end

/-- Every expansion comes to an end: with each variable that becomes active a binding goes out of sight, and between two
such steps the type gets smaller. -/
theorem expands_resolve (hides : subst.Hides active remaining) (type : Ty) :
    subst.Expands active type (remaining.resolve type) := by
  -- The outer induction is on the bindings in sight, the inner one on the type.
  induction remaining using erase_induction generalizing active type with
  | step remaining ih =>
    have ofRow : ∀ fields : Row, (fields.All fun type => subst.Expands active type (remaining.resolve type)) →
        subst.ExpandsRow active fields (remaining.resolveRow fields) := by
      intro fields each
      induction fields using Row.induction with
      | empty =>
        rw [resolveRow]
        exact .empty
      | field name type rest ih =>
        rw [resolveRow]
        exact .field (each (name, type) (List.mem_cons_self ..))
          (ih fun entry member => each entry (List.mem_cons_of_mem _ member))
    induction type using Ty.induction with
    | atom type basic =>
      rw [resolve_eq_mapVars, Ty.mapVars_of_isAtom basic]
      exact .atom basic
    | var v =>
      by_cases met : v.id ∈ active
      · rw [resolve_var_of_none (by simp [hides _, met])]
        exact .active met
      · have inSight := hides.getElem?_of_not_mem met
        cases bound : subst[v.id]? with
        | none =>
          rw [resolve_var_of_none (inSight.trans bound)]
          exact .unbound bound
        | some binding =>
          rw [resolve_var_of_some (inSight.trans bound)]
          exact .bound bound met (ih v.id binding (inSight.trans bound) (hides.erase v.id) binding)
    | tuple first second ih ih' =>
      rw [resolve]
      exact .tuple ih ih'
    | triple first second third ih ih' ih'' =>
      rw [resolve]
      exact .triple ih ih' ih''
    | list element ih =>
      rw [resolve]
      exact .list ih
    | function source target ih ih' =>
      rw [resolve]
      exact .function ih ih'
    | record fields each =>
      rw [resolve]
      exact .record (ofRow fields each)
    | extension base fields ih each =>
      rw [resolve]
      exact .extension ih (ofRow fields each)

/-- Only the empty substitution keeps rows over records, as it returns every type unchanged. -/
theorem expands_iff (nonempty : subst ≠ {}) {type result : Ty} :
    subst.Expands [] type result ↔ result = subst.apply type := by
  have resolves : subst.apply type = subst.resolve type := by rw [apply, if_neg (by simpa using nonempty)]
  rw [resolves]
  constructor
  · exact Expands.eq_resolve (hides_nil subst)
  · rintro rfl
    exact expands_resolve (hides_nil subst) type

/-- A bound variable is left in a result only if it is on a cycle. -/
theorem cyclic_of_mem_apply {type : Ty} {u : TypeVar} (member : u ∈ (subst.apply type).occurrences)
    (isBound : subst[u.id]? ≠ none) : TransGen subst.Mentions u.id u.id := by
  obtain ⟨v, _, inValue⟩ := mem_occurrences_apply member
  exact cyclic_of_mem_value inValue isBound

/-- A second application finds nothing to replace and no rows to put together. -/
theorem Acyclic.apply_apply (acyclic : subst.Acyclic) (type : Ty) :
    subst.apply (subst.apply type) = subst.apply type := by
  rcases eq_or_ne subst {} with rfl | nonempty
  · simp only [apply_empty]
  · apply apply_eq_self
    · rw [apply_of_ne_empty nonempty]
      exact Ty.mapVars_flat type (value_flat subst)
    · intro v inResult
      exact unbound_of_mem_apply acyclic inResult

/-- Application is total and exhaustive. Every type has one expansion, which application returns; bound variables are
left only on cycles of bindings; without cycles none is left, and applying again changes nothing. -/
theorem apply_exhaustive (subst : Substitution) (type : Ty) :
    (subst = {} → subst.apply type = type) ∧
      (subst ≠ {} → ∀ result, subst.Expands [] type result ↔ result = subst.apply type) ∧
      (∀ u ∈ (subst.apply type).occurrences, subst[u.id]? ≠ none → TransGen subst.Mentions u.id u.id) ∧
      (subst.Acyclic → (∀ u ∈ (subst.apply type).occurrences, subst[u.id]? = none) ∧
        subst.apply (subst.apply type) = subst.apply type) := by
  refine ⟨?_, ?_, ?_, ?_⟩
  · rintro rfl
    exact apply_empty type
  · intro nonempty result
    exact expands_iff nonempty
  · intro u inResult isBound
    exact cyclic_of_mem_apply inResult isBound
  · intro acyclic
    exact ⟨fun u inResult => unbound_of_mem_apply acyclic inResult, acyclic.apply_apply type⟩

/-- Two variables whose bindings mention each other, and one that is on no cycle: `t0 = (t1, t2)`, `t1 = [t0]`,
`t2 = Int`. -/
def looped : Substitution :=
  ((singleton (.generated 0) (.tuple (.var (.generated 1)) (.var (.generated 2)))).bind (.generated 1)
    (.list (.var (.generated 0)))).bind (.generated 2) .int

/-- The expansion stops at the variable it started from, which is still bound. -/
theorem apply_exhaustive_looped :
    looped.apply (.var (.generated 0)) = .tuple (.list (.var (.generated 0))) .int ∧
      looped.Expands [] (.var (.generated 0)) (.tuple (.list (.var (.generated 0))) .int) ∧
      TransGen looped.Mentions (.generated 0) (.generated 0) := by
  have result : looped.apply (.var (.generated 0)) = .tuple (.list (.var (.generated 0))) .int := by cbv
  have nonempty : looped ≠ {} := by decide
  obtain ⟨_, expansion, cyclic, _⟩ := apply_exhaustive looped (.var (.generated 0))
  rw [result] at cyclic
  exact ⟨result, (expansion nonempty _).mpr result.symm, cyclic (.generated 0) (by decide) (by decide)⟩

end Substitution

end RowInference
