import RowInference.Substitution
import RowInference.Proofs.Types.Reading
import Mathlib.Logic.Relation

/-! # Applying substitutions

Applying a substitution replaces each variable by what its chain of bindings ends in. A valuation that solves a
substitution gives a type and the result of an application the same reading. For an acyclic substitution the ends
of the chains are themselves such a valuation, and no bound variable is left in a result.
-/

namespace RowInference

open Relation (ReflTransGen TransGen)

namespace Substitution

variable {subst : Substitution}

/-- Every binding is to a canonical type. -/
def Canonical (subst : Substitution) : Prop :=
  ∀ ⦃id : VarId⦄ ⦃type : Ty⦄, subst[id]? = some type → type.Canonical

/-- Every binding is to a canonical and flat type. -/
def Proper (subst : Substitution) : Prop :=
  ∀ ⦃id : VarId⦄ ⦃type : Ty⦄, subst[id]? = some type → type.Canonical ∧ type.Flat

theorem Proper.canonical (proper : subst.Proper) : subst.Canonical := fun _ _ found => (proper found).1

/-- The valuation gives each bound variable the reading of the type it is bound to. -/
def SolvedBy (subst : Substitution) (valuation : Valuation) : Prop :=
  ∀ ⦃v : TypeVar⦄ ⦃type : Ty⦄, subst[v.id]? = some type → valuation.value v = type.read valuation

theorem getElem?_erase_of_ne {id other : VarId} (different : id ≠ other) :
    (subst.erase id)[other]? = subst[other]? := by
  rw [Std.ExtTreeMap.getElem?_erase, if_neg (by rwa [Std.LawfulEqCmp.compare_eq_iff_eq])]

theorem getElem?_of_erase {id other : VarId} {type : Ty} (found : (subst.erase id)[other]? = some type) :
    subst[other]? = some type := by
  rw [Std.ExtTreeMap.getElem?_erase] at found
  split at found
  · cases found
  · exact found

theorem Canonical.erase (canonical : subst.Canonical) (id : VarId) : Canonical (subst.erase id) :=
  fun _ _ found => canonical (getElem?_of_erase found)

theorem Proper.erase (proper : subst.Proper) (id : VarId) : Proper (subst.erase id) :=
  fun _ _ found => proper (getElem?_of_erase found)

/-- What solves a substitution solves a part of it. -/
theorem SolvedBy.erase {valuation : Valuation} (solved : subst.SolvedBy valuation) (id : VarId) :
    SolvedBy (subst.erase id) valuation :=
  fun _ _ found => solved (getElem?_of_erase found)

/-- Bindings are used up on the way along a chain, so a property of all substitutions may be assumed of those
with one binding fewer. -/
theorem erase_induction {holds : Substitution → Prop}
    (step : ∀ subst : Substitution,
      (∀ id type, subst[id]? = some type → holds (subst.erase id)) → holds subst)
    (subst : Substitution) : holds subst := by
  have bounded : ∀ size, ∀ subst : Substitution, subst.size < size → holds subst := by
    intro size
    induction size with
    | zero => intro subst small; omega
    | succ size ih =>
      intro subst small
      apply step
      intro id type found
      have := size_erase_lt found
      exact ih _ (by omega)
  exact bounded _ subst (Nat.lt_succ_self _)

theorem resolve_var_of_none {v : TypeVar} (unbound : subst[v.id]? = none) :
    subst.resolve (.var v) = .var v := by
  rw [resolve]
  split
  · next found => rw [unbound] at found; cases found
  · rfl

/-- A bound variable resolves to its binding, resolved without the binding itself. -/
theorem resolve_var_of_some {v : TypeVar} {type : Ty} (bound : subst[v.id]? = some type) :
    subst.resolve (.var v) = resolve (subst.erase v.id) type := by
  rw [resolve]
  split
  · next found => rw [bound] at found; cases found; rfl
  · next found => rw [bound] at found; cases found

/-- Application resolves the variables and leaves the rest of the type in place. -/
theorem resolve_eq_mapVars (subst : Substitution) (type : Ty) :
    subst.resolve type = type.mapVars fun v => subst.resolve (.var v) := by
  have ofRow : ∀ fields : Row,
      (fields.All fun type => subst.resolve type = type.mapVars fun v => subst.resolve (.var v)) →
      subst.resolveRow fields = fields.mapVars fun v => subst.resolve (.var v) := by
    intro fields each
    induction fields using Row.induction with
    | empty => rw [resolveRow, Row.mapVars]
    | field name type rest ih =>
      have here := each (name, type) (List.mem_cons_self ..)
      have there := ih fun entry member => each entry (List.mem_cons_of_mem _ member)
      rw [resolveRow, Row.mapVars, here, there]
  induction type using Ty.induction with
  | atom type basic =>
    rw [Ty.mapVars_of_isAtom basic]
    cases type <;> simp_all [Ty.isAtom, resolve]
  | var v => rfl
  | tuple first second ih ih' => rw [resolve, ih, ih', Ty.mapVars]
  | triple first second third ih ih' ih'' => rw [resolve, ih, ih', ih'', Ty.mapVars]
  | list element ih => rw [resolve, ih, Ty.mapVars]
  | function source target ih ih' => rw [resolve, ih, ih', Ty.mapVars]
  | record fields ih => rw [resolve, ofRow fields ih, Ty.mapVars]
  | extension base fields ih ih' => rw [resolve, ih, ofRow fields ih', Ty.mapVars]

theorem resolve_var_canonical (canonical : subst.Canonical) (v : TypeVar) :
    (subst.resolve (.var v)).Canonical := by
  induction subst using erase_induction generalizing v with
  | step subst ih =>
    cases bound : subst[v.id]? with
    | none =>
      rw [resolve_var_of_none bound]
      exact trivial
    | some type =>
      rw [resolve_var_of_some bound, resolve_eq_mapVars]
      exact Ty.mapVars_canonical (canonical bound) (ih v.id type bound (canonical.erase v.id))

/-- Resolving puts rows together, also those of a binding that is not flat. -/
theorem resolve_var_flat (subst : Substitution) (v : TypeVar) : (subst.resolve (.var v)).Flat := by
  induction subst using erase_induction generalizing v with
  | step subst ih =>
    cases bound : subst[v.id]? with
    | none =>
      rw [resolve_var_of_none bound]
      exact trivial
    | some type =>
      rw [resolve_var_of_some bound, resolve_eq_mapVars]
      exact Ty.mapVars_flat type (ih v.id type bound)

/-- The type that a variable resolves to. -/
def value (subst : Substitution) (v : TypeVar) : Ty := subst.apply (.var v)

/-- On a variable application is resolution, also where nothing is bound. -/
theorem apply_var_eq_resolve (subst : Substitution) (v : TypeVar) :
    subst.apply (.var v) = subst.resolve (.var v) := by
  rw [apply]
  split
  · next empty =>
    rw [resolve_var_of_none]
    rw [Std.ExtTreeMap.isEmpty_iff] at empty
    simp [empty]
  · rfl

theorem value_of_none {v : TypeVar} (unbound : subst[v.id]? = none) : subst.value v = .var v := by
  rw [value, apply_var_eq_resolve, resolve_var_of_none unbound]

theorem value_canonical (canonical : subst.Canonical) (v : TypeVar) : (subst.value v).Canonical := by
  rw [value, apply_var_eq_resolve]
  exact resolve_var_canonical canonical v

theorem value_flat (subst : Substitution) (v : TypeVar) : (subst.value v).Flat := by
  rw [value, apply_var_eq_resolve]
  exact resolve_var_flat subst v

/-- Application replaces each variable by what it resolves to, unless there is nothing to replace. -/
theorem apply_of_ne_empty (nonempty : subst ≠ {}) (type : Ty) : subst.apply type = type.mapVars subst.value := by
  have values : subst.value = fun v => subst.resolve (.var v) := funext (apply_var_eq_resolve subst)
  rw [apply, if_neg (by simpa using nonempty), resolve_eq_mapVars, values]

theorem apply_empty (type : Ty) : Substitution.apply {} type = type := by
  rw [apply, if_pos (by simp)]

theorem value_empty (v : TypeVar) : Substitution.value {} v = .var v := apply_empty (.var v)

/-- Application to a flat type replaces each variable by what it resolves to. -/
theorem apply_eq_mapVars {type : Ty} (flat : type.Flat) : subst.apply type = type.mapVars subst.value := by
  rcases eq_or_ne subst {} with rfl | nonempty
  · rw [apply_empty]
    exact (Ty.mapVars_eq_self flat fun v _ => value_empty v).symm
  · exact apply_of_ne_empty nonempty type

/-- Application keeps rows sorted. -/
theorem apply_canonical (canonical : subst.Canonical) {type : Ty} (typeCanonical : type.Canonical) :
    (subst.apply type).Canonical := by
  rcases eq_or_ne subst {} with rfl | nonempty
  · rwa [apply_empty]
  · rw [apply_of_ne_empty nonempty]
    exact Ty.mapVars_canonical typeCanonical (value_canonical canonical)

/-- Application to a flat type gives a flat type. -/
theorem apply_flat {type : Ty} (flat : type.Flat) : (subst.apply type).Flat := by
  rw [apply_eq_mapVars flat]
  exact Ty.mapVars_flat type (value_flat subst)

/-- Replacing variables after an application is replacing them in what variables resolve to. -/
theorem mapVars_apply (canonical : subst.Canonical) {type : Ty} (typeCanonical : type.Canonical)
    {replace : TypeVar → Ty} (values : ∀ v, (replace v).Canonical) :
    (subst.apply type).mapVars replace = type.mapVars fun v => (subst.value v).mapVars replace := by
  rcases eq_or_ne subst {} with rfl | nonempty
  · rw [apply_empty]
    exact Ty.mapVars_congr fun v _ => by rw [value_empty, Ty.mapVars]
  · rw [apply_of_ne_empty nonempty, Ty.mapVars_mapVars typeCanonical (value_canonical canonical) values]

/-- What variables resolve to, as a valuation. -/
def valuation (subst : Substitution) (proper : subst.Proper) : Valuation where
  value := subst.value
  canonical := value_canonical proper.canonical

/-- Application is reading under what variables resolve to. -/
theorem read_valuation (proper : subst.Proper) {type : Ty} (flat : type.Flat) :
    type.read (subst.valuation proper) = subst.apply type :=
  (apply_eq_mapVars flat).symm

/-! ## Readings of solutions -/

/-- A valuation that solves a substitution reads what a variable resolves to as the value of the variable. -/
theorem read_value {valuation : Valuation} (proper : subst.Proper) (solved : subst.SolvedBy valuation)
    (v : TypeVar) : (subst.value v).read valuation = valuation.value v := by
  rw [value, apply_var_eq_resolve]
  induction subst using erase_induction generalizing v with
  | step subst ih =>
    cases bound : subst[v.id]? with
    | none =>
      rw [resolve_var_of_none bound]
      rfl
    | some type =>
      have values := resolve_var_canonical (proper.canonical.erase v.id)
      rw [resolve_var_of_some bound, resolve_eq_mapVars, Ty.read,
        Ty.mapVars_mapVars (proper bound).1 values valuation.canonical, solved bound, Ty.read]
      exact congrArg (Ty.mapVars · type) (funext fun u => ih v.id type bound (proper.erase _) (solved.erase _) u)

/-- A solution cannot tell a type from the type after application. -/
theorem read_apply {valuation : Valuation} (proper : subst.Proper) (solved : subst.SolvedBy valuation)
    {type : Ty} (canonical : type.Canonical) : (subst.apply type).read valuation = type.read valuation := by
  rw [Ty.read, mapVars_apply proper.canonical canonical valuation.canonical]
  exact Ty.mapVars_congr fun v _ => read_value proper solved v

/-! ## Chains of bindings -/

/-- The binding of the first variable mentions the second. -/
def Mentions (subst : Substitution) (id other : VarId) : Prop :=
  ∃ type, subst[id]? = some type ∧ ∃ v ∈ type.occurrences, v.id = other

/-- No chain of bindings comes back to the variable it starts from. -/
def Acyclic (subst : Substitution) : Prop := ∀ id, ¬TransGen subst.Mentions id id

theorem Mentions.of_erase {id from' to' : VarId} (mentions : Mentions (subst.erase id) from' to') :
    subst.Mentions from' to' := by
  obtain ⟨type, found, present⟩ := mentions
  exact ⟨type, getElem?_of_erase found, present⟩

theorem reaches_of_erase {id from' to' : VarId} (chain : ReflTransGen (Mentions (subst.erase id)) from' to') :
    ReflTransGen subst.Mentions from' to' :=
  ReflTransGen.mono (fun _ _ => Mentions.of_erase) _ _ chain

theorem Acyclic.erase (acyclic : subst.Acyclic) (id : VarId) : Acyclic (subst.erase id) :=
  fun start cycle => acyclic start (TransGen.mono (fun _ _ => Mentions.of_erase) _ _ cycle)

/-- What a variable resolves to mentions only variables along its chains. -/
theorem reaches_of_mem_resolve {v u : TypeVar} (member : u ∈ (subst.resolve (.var v)).occurrences) :
    ReflTransGen subst.Mentions v.id u.id := by
  induction subst using erase_induction generalizing v with
  | step subst ih =>
    cases bound : subst[v.id]? with
    | none =>
      rw [resolve_var_of_none bound] at member
      obtain rfl := List.mem_singleton.mp member
      exact .refl
    | some type =>
      rw [resolve_var_of_some bound, resolve_eq_mapVars] at member
      obtain ⟨w, inType, inValue⟩ := Ty.mem_occurrences_mapVars member
      have chain := reaches_of_erase (ih v.id type bound inValue)
      exact .head ⟨type, bound, w, inType, rfl⟩ chain

/-- A bound variable that is left has been met again in the course of its own expansion. Here `subst` is what is left of
`whole`, and the bindings that are missing are those under expansion. -/
theorem cyclic_of_mem_resolve {whole : Substitution}
    (part : ∀ ⦃id : VarId⦄ ⦃type : Ty⦄, subst[id]? = some type → whole[id]? = some type) {v u : TypeVar}
    (expanding : ∀ id, whole[id]? ≠ none → subst[id]? = none → TransGen whole.Mentions id v.id)
    (member : u ∈ (subst.resolve (.var v)).occurrences) (isBound : whole[u.id]? ≠ none) :
    TransGen whole.Mentions u.id u.id := by
  induction subst using erase_induction generalizing v with
  | step subst ih =>
    cases bound : subst[v.id]? with
    | none =>
      rw [resolve_var_of_none bound] at member
      obtain rfl := List.mem_singleton.mp member
      exact expanding _ isBound bound
    | some type =>
      rw [resolve_var_of_some bound, resolve_eq_mapVars] at member
      obtain ⟨w, inType, inValue⟩ := Ty.mem_occurrences_mapVars member
      have mentions : whole.Mentions v.id w.id := ⟨type, part bound, w, inType, rfl⟩
      refine ih v.id type bound (fun _ _ found => part (getElem?_of_erase found)) (fun id known missing => ?_) inValue
      by_cases same : v.id = id
      · exact same ▸ .single mentions
      · rw [getElem?_erase_of_ne same] at missing
        exact (expanding id known missing).tail mentions

/-- A bound variable is left in what a variable resolves to only if it is on a cycle. -/
theorem cyclic_of_mem_value {v u : TypeVar} (member : u ∈ (subst.value v).occurrences)
    (isBound : subst[u.id]? ≠ none) : TransGen subst.Mentions u.id u.id := by
  rw [value, apply_var_eq_resolve] at member
  exact cyclic_of_mem_resolve (fun _ _ found => found) (fun _ known missing => absurd missing known) member isBound

/-- Application leaves no bound variable, if there are no cycles. -/
theorem unbound_of_mem_value (acyclic : subst.Acyclic) {v u : TypeVar}
    (member : u ∈ (subst.value v).occurrences) : subst[u.id]? = none := by
  by_contra isBound
  exact acyclic u.id (cyclic_of_mem_value member isBound)

/-- A variable in the result comes from what some variable of the type resolves to. -/
theorem mem_occurrences_apply {type : Ty} {u : TypeVar} (member : u ∈ (subst.apply type).occurrences) :
    ∃ v ∈ type.occurrences, u ∈ (subst.value v).occurrences := by
  rcases eq_or_ne subst {} with rfl | nonempty
  · rw [apply_empty] at member
    refine ⟨u, member, ?_⟩
    rw [value_empty]
    exact List.mem_singleton_self u
  · rw [apply_of_ne_empty nonempty] at member
    exact Ty.mem_occurrences_mapVars member

/-- Without cycles no bound variable is left. -/
theorem unbound_of_mem_apply (acyclic : subst.Acyclic) {type : Ty} {u : TypeVar}
    (member : u ∈ (subst.apply type).occurrences) : subst[u.id]? = none := by
  obtain ⟨v, _, inValue⟩ := mem_occurrences_apply member
  exact unbound_of_mem_value acyclic inValue

/-- A type without bound variables stays as it is. -/
theorem apply_eq_self {type : Ty} (flat : type.Flat) (unbound : ∀ v ∈ type.occurrences, subst[v.id]? = none) :
    subst.apply type = type := by
  rw [apply_eq_mapVars flat]
  exact Ty.mapVars_eq_self flat fun v inType => value_of_none (unbound v inType)

/-! ## Acyclic substitutions -/

/-- Following the bindings of an acyclic substitution ends, so that what holds of a variable may be shown from what
holds of the variables in its binding. -/
theorem acyclic_iff_wellFounded : subst.Acyclic ↔ WellFounded fun other id => subst.Mentions id other := by
  constructor
  · intro acyclic
    induction subst using erase_induction with
    | step subst ih =>
      refine ⟨fun id => ?_⟩
      cases bound : subst[id]? with
      | none =>
        refine ⟨id, fun _ ⟨_, found, _⟩ => ?_⟩
        rw [bound] at found
        cases found
      | some type =>
        -- The variables from which there is no way back to `id` do not need its binding.
        have away : ∀ other, ¬ReflTransGen subst.Mentions other id →
            Acc (fun other id => subst.Mentions id other) other := by
          intro other
          induction other using (ih id type bound (acyclic.erase id)).induction with
          | _ other ih =>
            intro apart
            refine ⟨other, fun next ⟨binding, found, present⟩ => ?_⟩
            have different : id ≠ other := by
              rintro rfl
              exact apart .refl
            exact ih next ⟨binding, (getElem?_erase_of_ne different).trans found, present⟩
              fun chain => apart (.head ⟨binding, found, present⟩ chain)
        exact ⟨id, fun next mentions => away next fun back => acyclic id (.head' mentions back)⟩
  · intro wellFounded id
    induction id using wellFounded.induction with
    | _ id ih =>
      intro cycle
      obtain ⟨next, mentions, back⟩ := TransGen.head'_iff.mp cycle
      exact ih next mentions (.tail' back mentions)

/-- Bindings along which a rank falls have no cycle. -/
theorem acyclic_of_rank (rank : VarId → Nat)
    (falls : ∀ ⦃id : VarId⦄ ⦃type : Ty⦄, subst[id]? = some type → ∀ v ∈ type.occurrences, rank v.id < rank id) :
    subst.Acyclic := by
  rw [acyclic_iff_wellFounded]
  refine Subrelation.wf ?_ (measure rank).wf
  rintro _ id ⟨type, bound, v, inType, rfl⟩
  exact falls bound v inType

/-- A binding that a chain never meets does not matter to it. -/
theorem resolve_erase {id : VarId} {v : TypeVar} (apart : ¬ReflTransGen subst.Mentions v.id id) :
    resolve (subst.erase id) (.var v) = subst.resolve (.var v) := by
  induction subst using erase_induction generalizing v id with
  | step subst ih =>
    have different : id ≠ v.id := by
      rintro rfl
      exact apart .refl
    cases bound : subst[v.id]? with
    | none =>
      rw [resolve_var_of_none bound, resolve_var_of_none ((getElem?_erase_of_ne different).trans bound)]
    | some type =>
      have swapped : (subst.erase id).erase v.id = (subst.erase v.id).erase id := by
        apply Std.ExtTreeMap.ext_getElem?
        intro key
        simp only [Std.ExtTreeMap.getElem?_erase]
        split <;> split <;> rfl
      rw [resolve_var_of_some bound, resolve_var_of_some ((getElem?_erase_of_ne different).trans bound),
        resolve_eq_mapVars, resolve_eq_mapVars _ type]
      apply Ty.mapVars_congr
      intro u inType
      rw [swapped]
      apply ih v.id type bound
      intro chain
      exact apart (.head ⟨type, bound, u, inType, rfl⟩ (reaches_of_erase chain))

/-- A bound variable of an acyclic substitution resolves to its binding with the variables in it resolved. -/
theorem value_of_some (acyclic : subst.Acyclic) {v : TypeVar} {type : Ty} (bound : subst[v.id]? = some type) :
    subst.value v = type.mapVars subst.value := by
  rw [value, apply_var_eq_resolve, resolve_var_of_some bound, resolve_eq_mapVars]
  apply Ty.mapVars_congr
  intro u inType
  rw [value, apply_var_eq_resolve]
  apply resolve_erase
  intro chain
  exact acyclic v.id (TransGen.head' ⟨type, bound, u, inType, rfl⟩ chain)

/-- Only what variables resolve to leaves unbound variables alone and agrees with all bindings. -/
theorem value_unique (acyclic : subst.Acyclic) (replace : TypeVar → Ty)
    (ofUnbound : ∀ v : TypeVar, subst[v.id]? = none → replace v = .var v)
    (ofBound : ∀ (v : TypeVar) (type : Ty), subst[v.id]? = some type → replace v = type.mapVars replace) (v : TypeVar) :
    subst.value v = replace v := by
  have byId : ∀ (id : VarId) (v : TypeVar), v.id = id → subst.value v = replace v := by
    intro id
    induction id using (acyclic_iff_wellFounded.mp acyclic).induction with
    | _ id ih =>
      rintro v rfl
      cases bound : subst[v.id]? with
      | none => rw [value_of_none bound, ofUnbound v bound]
      | some type =>
        rw [value_of_some acyclic bound, ofBound v type bound]
        exact Ty.mapVars_congr fun u inType => ih u.id ⟨type, bound, u, inType, rfl⟩ u rfl
  exact byId v.id v rfl

/-- The ends of the chains of an acyclic substitution solve it. -/
theorem solvedBy_valuation (proper : subst.Proper) (acyclic : subst.Acyclic) :
    subst.SolvedBy (subst.valuation proper) := by
  intro v type bound
  exact value_of_some acyclic bound

/-! ## Schemes -/

/-- The bindings of variables other than the given ones. -/
def without (subst : Substitution) (vars : List TypeVar) : Substitution :=
  vars.foldl (fun subst var => subst.erase var.id) subst

theorem without_cons (subst : Substitution) (var : TypeVar) (rest : List TypeVar) :
    subst.without (var :: rest) = without (subst.erase var.id) rest := rfl

theorem applyScheme_eq (subst : Substitution) (scheme : Scheme) :
    subst.applyScheme scheme = ⟨scheme.binders, (subst.without scheme.binders).apply scheme.body⟩ := rfl

theorem getElem?_of_without {vars : List TypeVar} {id : VarId} {type : Ty}
    (found : (subst.without vars)[id]? = some type) : subst[id]? = some type := by
  induction vars generalizing subst with
  | nil => exact found
  | cons var rest ih => exact getElem?_of_erase (ih found)

theorem getElem?_without_of_mem {vars : List TypeVar} {v : TypeVar} (member : v ∈ vars) :
    (subst.without vars)[v.id]? = none := by
  induction vars generalizing subst with
  | nil => cases member
  | cons var rest ih =>
    rcases List.mem_cons.mp member with rfl | later
    · by_contra present
      obtain ⟨type, found⟩ := Option.ne_none_iff_exists'.mp present
      have kept := getElem?_of_without (without_cons subst v rest ▸ found)
      simp at kept
    · exact ih later

end Substitution

end RowInference
