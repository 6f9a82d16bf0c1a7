import RowInference.Proofs.Inference.Nesting
import RowInference.Proofs.Inference.Scopes

/-! # Inferences side by side

Two inferences go in lockstep if they issue the same variables, learn the same and end with corresponding values or with
the same fault. They may look at environments that differ: the schemes of *hidden* names need not be the same, nor the
scopes that names are bound in, as long as the names that are not hidden mean the same. A *lax* lockstep also does not
compare how deep nodes are nested and where they stand; then nothing is said when one of the two inferences is refused
for its depth.
-/

namespace RowInference

variable {lax : Prop} {hidden later last : String → Prop} {α β γ δ : Type}

/-! ## States and results -/

/-- Two states with the same knowledge, in which names that are not hidden mean the same. -/
structure InferState.Beside (lax : Prop) (hidden : String → Prop) (state other : InferState) : Prop where
  names : ∀ name, ¬hidden name → other.env.get? name = state.env.get? name
  subst : other.subst = state.subst
  supply : other.supply = state.supply
  bound : other.bound = state.bound
  depth : ¬lax → other.depth = state.depth

theorem InferState.Beside.symm {state other : InferState} (beside : state.Beside lax hidden other) :
    other.Beside lax hidden state where
  names name seen := (beside.names name seen).symm
  subst := beside.subst.symm
  supply := beside.supply.symm
  bound := beside.bound.symm
  depth strict := (beside.depth strict).symm

/-- The ends of two runs that began in given states. -/
inductive InStep (lax : Prop) (later : String → Prop) (same : α → β → Prop) (state other : InferState) :
    Except TypeError α × InferState → Except TypeError β × InferState → Prop
  /-- Both succeed with corresponding values. They have left the scopes around the current one alone. -/
  | returns {value : α} {value' : β} {after after' : InferState} (isSame : same value value')
      (beside : after.Beside lax later after') (outer : after.env.outer = state.env.outer)
      (outer' : after'.env.outer = other.env.outer) :
      InStep lax later same state other (.ok value, after) (.ok value', after')
  /-- Both fail with the same fault, after as many variables. -/
  | fails (fault : Fault) {span span' : Span} (placed : ¬lax → span' = span) {after after' : InferState}
      (supply : after'.supply = after.supply) :
      InStep lax later same state other (.error ⟨fault, span⟩, after) (.error ⟨fault, span'⟩, after')
  /-- One is nested too deep. -/
  | refused {run : Except TypeError α × InferState} {run' : Except TypeError β × InferState} (isLax : lax)
      (deep : TooDeep run.1 ∨ TooDeep run'.1) : InStep lax later same state other run run'

/-- From states with some names hidden both inferences go in step, and end in states with other names hidden. -/
def InferM.Lockstep (lax : Prop) (hidden later : String → Prop) (same : α → β → Prop) (action : InferM α)
    (other : InferM β) : Prop :=
  ∀ state state', state.Beside lax hidden state' → InStep lax later same state state' (action state) (other state')

theorem TooDeep.exists_error {run : Except TypeError α × InferState} (deep : TooDeep run.1) :
    ∃ error after, run = (.error error, after) ∧ ∃ limit, error.fault = .tooDeep limit := by
  rcases run with ⟨error | value, after⟩
  · exact ⟨error, after, rfl, deep⟩
  · exact deep.elim

namespace InStep

variable {same : α → β → Prop} {state state' mid mid' : InferState} {run : Except TypeError α × InferState}
  {run' : Except TypeError β × InferState}

/-- The ends can be seen from states further back. -/
theorem since (step : InStep lax later same mid mid' run run') (outer : mid.env.outer = state.env.outer)
    (outer' : mid'.env.outer = state'.env.outer) : InStep lax later same state state' run run' := by
  cases step with
  | returns isSame beside left left' => exact .returns isSame beside (left.trans outer) (left'.trans outer')
  | fails fault placed supply => exact .fails fault placed supply
  | refused isLax deep => exact .refused isLax deep

/-- What corresponds can be replaced by what corresponds less. -/
theorem imp {weaker : α → β → Prop} (step : InStep lax later same state state' run run')
    (imp : ∀ value value', same value value' → weaker value value') :
    InStep lax later weaker state state' run run' := by
  cases step with
  | returns isSame beside outer outer' => exact .returns (imp _ _ isSame) beside outer outer'
  | fails fault placed supply => exact .fails fault placed supply
  | refused isLax deep => exact .refused isLax deep

theorem weaken (step : InStep lax later same state state' run run') (more : ∀ name, later name → last name) :
    InStep lax last same state state' run run' := by
  cases step with
  | returns isSame beside outer outer' =>
    exact .returns isSame { beside with names := fun name seen => beside.names name (seen ∘ more name) } outer outer'
  | fails fault placed supply => exact .fails fault placed supply
  | refused isLax deep => exact .refused isLax deep

theorem symm (step : InStep lax later same state state' run run') :
    InStep lax later (flip same) state' state run' run := by
  cases step with
  | returns isSame beside outer outer' => exact .returns isSame beside.symm outer' outer
  | fails fault placed supply => exact .fails fault (fun strict => (placed strict).symm) supply.symm
  | refused isLax deep => exact .refused isLax deep.symm

/-- The runs may go on at other depths, the same ones where depths are compared. -/
theorem atDepth (step : InStep lax later same state state' run run') (leave leave' : Nat → Nat)
    (agree : ¬lax → leave' = leave) : InStep lax later same state state'
      (run.1, { run.2 with depth := leave run.2.depth }) (run'.1, { run'.2 with depth := leave' run'.2.depth }) := by
  cases step with
  | returns isSame beside outer outer' =>
    refine .returns isSame { beside with depth := fun strict => ?_ } outer outer'
    rw [agree strict, beside.depth strict]
  | fails fault placed supply => exact .fails fault placed supply
  | refused isLax deep => exact .refused isLax deep

end InStep

namespace InferM.Lockstep

variable {same : α → β → Prop} {sameNext : γ → δ → Prop} {action : InferM α} {other : InferM β}

/-! ## Steps -/

theorem pure {value : α} {value' : β} (isSame : same value value') :
    Lockstep lax hidden hidden same (Pure.pure value) (Pure.pure value') :=
  fun _ _ beside => .returns isSame beside rfl rfl

theorem fail (fault : Fault) {span span' : Span} (placed : ¬lax → span' = span) :
    Lockstep lax hidden later same (InferM.fail fault span) (InferM.fail fault span') :=
  fun _ _ beside => .fails _ placed beside.supply

theorem imp {weaker : α → β → Prop} (lockstep : Lockstep lax hidden later same action other)
    (imp : ∀ value value', same value value' → weaker value value') : Lockstep lax hidden later weaker action other :=
  fun state state' beside => (lockstep state state' beside).imp imp

/-- Runs that go in lockstep one after the other go in lockstep together. -/
theorem bind {next : α → InferM γ} {next' : β → InferM δ} (first : Lockstep lax hidden later same action other)
    (rest : ∀ value value', same value value' → Lockstep lax later last sameNext (next value) (next' value')) :
    Lockstep lax hidden last sameNext (action >>= next) (other >>= next') := by
  intro state state' beside
  have step := first state state' beside
  rw [bind_run, bind_run]
  generalize action state = run, other state' = run' at step ⊢
  cases step with
  | returns isSame beside outer outer' => exact (rest _ _ isSame _ _ beside).since outer outer'
  | fails fault placed supply => exact .fails fault placed supply
  | refused isLax deep =>
    rcases deep with deep | deep
    · obtain ⟨_, _, rfl, isDeep⟩ := deep.exists_error
      exact .refused isLax (.inl isDeep)
    · obtain ⟨_, _, rfl, isDeep⟩ := deep.exists_error
      exact .refused isLax (.inr isDeep)

/-- More names may be hidden afterwards. -/
theorem weaken (lockstep : Lockstep lax hidden later same action other) (more : ∀ name, later name → last name) :
    Lockstep lax hidden last same action other :=
  fun state state' beside => (lockstep state state' beside).weaken more

theorem symm (lockstep : Lockstep lax hidden later same action other) :
    Lockstep lax hidden later (flip same) other action :=
  fun state state' beside => (lockstep state' state beside.symm).symm

/-- One of the two does something with its value. -/
theorem andThen_pure_right {value : β → γ} {sameValue : α → γ → Prop}
    (lockstep : Lockstep lax hidden later same action other)
    (imp : ∀ found found', same found found' → sameValue found (value found')) :
    Lockstep lax hidden later sameValue action (other >>= fun found => Pure.pure (value found)) := by
  rw [← bind_pure action]
  exact lockstep.bind fun found found' isSame => pure (imp found found' isSame)

theorem andThen_pure_left {value : α → γ} {sameValue : γ → β → Prop}
    (lockstep : Lockstep lax hidden later same action other)
    (imp : ∀ found found', same found found' → sameValue (value found) found') :
    Lockstep lax hidden later sameValue (action >>= fun found => Pure.pure (value found)) other :=
  (lockstep.symm.andThen_pure_right fun found found' isSame => imp found' found isSame).symm

theorem fresh (constraint : Option Constraint) :
    Lockstep lax hidden hidden (· = ·) (InferM.fresh constraint) (InferM.fresh constraint) := by
  intro state state' beside
  rw [fresh_run, fresh_run, beside.supply]
  exact .returns rfl { beside with supply := rfl } rfl rfl

theorem instantiate (scheme : Scheme) :
    Lockstep lax hidden hidden (· = ·) (InferM.instantiate scheme) (InferM.instantiate scheme) := by
  intro state state' beside
  rw [instantiate_run, instantiate_run, beside.supply]
  exact .returns rfl { beside with supply := rfl } rfl rfl

/-- A name that is not hidden means the same to both. -/
theorem lookup {name : String} (seen : ¬hidden name) {span span' : Span} (placed : ¬lax → span' = span) :
    Lockstep lax hidden hidden (· = ·) (InferM.lookup name span) (InferM.lookup name span') := by
  intro state state' beside
  have found := beside.names name seen
  cases isFound : state.env.get? name with
  | none =>
    rw [lookup_run_of_none span isFound, lookup_run_of_none span' (found.trans isFound)]
    exact .fails _ placed beside.supply
  | some scheme =>
    rw [lookup_run_of_some span isFound, lookup_run_of_some span' (found.trans isFound)]
    exact instantiate scheme state state' beside

/-- The same equation is solved in the same way. -/
theorem equate {expected expected' actual actual' : Ty} (sameExpected : expected = expected')
    (sameActual : actual = actual') {span span' : Span} (placed : ¬lax → span' = span) :
    Lockstep lax hidden hidden (· = ·) (InferM.equate expected actual span)
      (InferM.equate expected' actual' span') := by
  intro state state' beside
  have sameRun : unify (state'.subst.apply expected') (state'.subst.apply actual') state'.supply
      = unify (state.subst.apply expected) (state.subst.apply actual) state.supply := by
    rw [beside.subst, beside.supply, sameExpected, sameActual]
  rcases ran : unify (state.subst.apply expected) (state.subst.apply actual) state.supply with ⟨error | found, supply⟩
  · rw [equate_run_of_error span ran, equate_run_of_error span' (sameRun.trans ran)]
    exact .fails _ placed rfl
  · obtain ⟨events, run⟩ := equate_run_of_ok span ran
    obtain ⟨events', run'⟩ := equate_run_of_ok span' (sameRun.trans ran)
    rw [run, run', beside.subst]
    exact .returns rfl { beside with supply := rfl, subst := rfl } rfl rfl

theorem declare (name : String) (scheme : Scheme) :
    Lockstep lax hidden hidden (· = ·) (InferM.declare name scheme) (InferM.declare name scheme) := by
  intro state state' beside
  have names : ∀ other, ¬hidden other →
      (state'.env.add name scheme).get? other = (state.env.add name scheme).get? other := by
    intro other seen
    rw [Environment.get?_add, Environment.get?_add, beside.names other seen]
  exact .returns rfl { beside with names } rfl rfl

theorem declareAll {names names' : List (String × Ty)} (sameNames : names = names') :
    Lockstep lax hidden hidden (· = ·) (InferM.declareAll names) (InferM.declareAll names') := by
  subst sameNames
  induction names with
  | nil => exact pure rfl
  | cons entry rest ih => exact (declare entry.1 _).bind fun _ _ _ => ih

theorem bindName (name : String) {type type' : Ty} (sameType : type = type') {span span' : Span}
    (placed : ¬lax → span' = span) :
    Lockstep lax hidden hidden (· = ·) (InferM.bindName name type span) (InferM.bindName name type' span') := by
  intro state state' beside
  rw [bindName_run, bindName_run, beside.bound, sameType]
  split
  · exact .fails _ placed beside.supply
  · exact .returns rfl { beside with bound := rfl } rfl rfl

theorem forget : Lockstep lax hidden hidden (· = ·) InferM.forget InferM.forget :=
  fun _ _ beside => .returns rfl { beside with subst := rfl } rfl rfl

theorem takeSubst : Lockstep lax hidden hidden (· = ·) InferM.takeSubst InferM.takeSubst :=
  fun _ _ beside => .returns beside.subst.symm { beside with subst := rfl } rfl rfl

theorem report (event : Event) : Lockstep lax hidden hidden (· = ·) (InferM.report event) (InferM.report event) :=
  fun _ _ beside => .returns rfl { beside with } rfl rfl

/-! ## Scopes, groups and nodes -/

/-- Whatever names are hidden inside of a scope, outside of it the same ones are as before. -/
theorem inScope (lockstep : Lockstep lax hidden later same action other) :
    Lockstep lax hidden hidden same (InferM.inScope action) (InferM.inScope other) := by
  intro state state' beside
  have inside : InferState.Beside lax hidden { state with env := state.env.enter }
      { state' with env := state'.env.enter } := by
    refine { beside with names := fun name seen => ?_ }
    rw [Environment.get?_enter, Environment.get?_enter, beside.names name seen]
  have step := lockstep _ _ inside
  rw [inScope_run, inScope_run]
  generalize action _ = run, other _ = run' at step ⊢
  cases step with
  | returns isSame besideInside outer outer' =>
    have left := Environment.exit_of_outer outer
    have left' := Environment.exit_of_outer outer'
    refine .returns isSame { besideInside with names := ?_ } (congrArg Environment.outer left)
      (congrArg Environment.outer left')
    rw [left, left']
    exact beside.names
  | fails fault placed supply => exact .fails fault placed supply
  | refused isLax deep => exact .refused isLax deep

/-- A scope that only one of the two has keeps its names to itself. -/
theorem inScope_right (lockstep : Lockstep lax hidden later same action other) :
    Lockstep lax hidden (fun _ => True) same action (InferM.inScope other) := by
  intro state state' beside
  have inside : state.Beside lax hidden { state' with env := state'.env.enter } := by
    refine { beside with names := fun name seen => ?_ }
    rw [Environment.get?_enter, beside.names name seen]
  have step := lockstep _ _ inside
  rw [inScope_run]
  generalize action _ = run, other _ = run' at step ⊢
  cases step with
  | returns isSame besideInside outer outer' =>
    refine .returns isSame { besideInside with names := fun _ seen => absurd trivial seen } outer ?_
    exact congrArg Environment.outer (Environment.exit_of_outer outer')
  | fails fault placed supply => exact .fails fault placed supply
  | refused isLax deep => exact .refused isLax deep

/-- Two groups bind the same names. -/
theorem group (lockstep : Lockstep lax hidden later same action other) :
    Lockstep lax hidden later (fun found found' => same found.1 found'.1 ∧ found.2 = found'.2) (InferM.group action)
      (InferM.group other) := by
  have cleared : Lockstep lax hidden hidden (· = ·) (modify fun state => { state with bound := [] } : InferM PUnit)
      (modify fun state => { state with bound := [] }) :=
    fun _ _ beside => .returns rfl { beside with bound := rfl } rfl rfl
  refine cleared.bind fun _ _ _ => lockstep.bind fun _ _ isSame => ?_
  exact fun _ _ beside => .returns ⟨isSame, beside.bound.symm⟩ beside rfl rfl

/-- Both go inside a node. -/
theorem nested (limit : Nat) {span span' : Span} (placed : ¬lax → span' = span)
    (lockstep : Lockstep lax hidden later same action other) :
    Lockstep lax hidden later same (InferM.nested limit span action) (InferM.nested limit span' other) := by
  intro state state' beside
  rw [nested_run, nested_run]
  by_cases deep : state.depth ≥ limit <;> by_cases deep' : state'.depth ≥ limit
  · rw [if_pos deep, if_pos deep']
    exact .fails _ placed beside.supply
  · rw [if_pos deep]
    exact .refused (by_contra fun strict => deep' (beside.depth strict ▸ deep)) (.inl ⟨limit, rfl⟩)
  · rw [if_pos deep']
    exact .refused (by_contra fun strict => deep (beside.depth strict ▸ deep')) (.inr ⟨limit, rfl⟩)
  · rw [if_neg deep, if_neg deep']
    have step := lockstep { state with depth := state.depth + 1 } { state' with depth := state'.depth + 1 }
      { beside with depth := fun strict => congrArg (· + 1) (beside.depth strict) }
    exact (step.atDepth (· - 1) (· - 1) fun _ => rfl).since rfl rfl

/-- A node that only one of the two has. -/
theorem nested_right (isLax : lax) (limit : Nat) (span : Span)
    (lockstep : Lockstep lax hidden later same action other) :
    Lockstep lax hidden later same action (InferM.nested limit span other) := by
  intro state state' beside
  rw [nested_run]
  by_cases deep : state'.depth ≥ limit
  · rw [if_pos deep]
    exact .refused isLax (.inr ⟨limit, rfl⟩)
  · rw [if_neg deep]
    have step := lockstep state { state' with depth := state'.depth + 1 } { beside with depth := absurd isLax }
    exact (step.atDepth id (· - 1) (absurd isLax)).since rfl rfl

theorem nested_left (isLax : lax) (limit : Nat) (span : Span) (lockstep : Lockstep lax hidden later same action other) :
    Lockstep lax hidden later same (InferM.nested limit span action) other :=
  (lockstep.symm.nested_right isLax limit span).symm

end InferM.Lockstep

/-! ## Scripts -/

/-- No hidden name is looked up, nor the state looked at. -/
@[simp] def Script.Avoids (hidden : String → Prop) : {α : Type} → {action : InferM α} → Script action → Prop
  | _, _, .done _ | _, _, .fail _ _ | _, _, .fresh _ | _, _, .rowBase _ | _, _, .instantiate _ => True
  | _, _, .equate _ _ _ | _, _, .declare _ _ | _, _, .bindName _ _ _ => True
  | _, _, .forget | _, _, .takeSubst | _, _, .report _ => True
  | _, _, .lookup name _ => ¬hidden name
  | _, _, .getState => False
  | _, _, .andThen first rest => first.Avoids hidden ∧ ∀ value, (rest value).Avoids hidden
  | _, _, @choose _ _ _ _ _ ifYes ifNo => ifYes.Avoids hidden ∧ ifNo.Avoids hidden
  | _, _, .group inner => inner.Avoids hidden
  | _, _, .inScope inner => inner.Avoids hidden
  | _, _, .node _ _ _ inner => inner.Avoids hidden

/-- An inference goes in lockstep with itself, whatever the names mean that it does not look up. -/
theorem Script.lockstep {action : InferM α} (script : Script action) (avoids : script.Avoids hidden) :
    InferM.Lockstep lax hidden hidden (· = ·) action action := by
  induction script with
  | done value => exact .pure rfl
  | fail fault span => exact .fail fault fun _ => rfl
  | fresh constraint => exact .fresh constraint
  | rowBase fields => exact .fresh none
  | instantiate op => exact .instantiate _
  | lookup name span => exact .lookup avoids fun _ => rfl
  | equate expected actual span => exact .equate rfl rfl fun _ => rfl
  | declare name scheme => exact .declare name scheme
  | bindName name type span => exact .bindName name rfl fun _ => rfl
  | forget => exact .forget
  | takeSubst => exact .takeSubst
  | report event => exact .report event
  | getState => exact avoids.elim
  | andThen first rest ih ih' =>
    refine (ih avoids.1).bind ?_
    rintro value _ rfl
    exact ih' value (avoids.2 value)
  | choose condition ifYes ifNo ih ih' =>
    split
    · exact ih avoids.1
    · exact ih' avoids.2
  | group inner ih => exact (ih avoids).group.imp fun found found' same => Prod.ext same.1 same.2
  | inScope inner ih => exact (ih avoids).inScope
  | node typeOf limit span inner ih => exact (ih avoids).nested limit fun _ => rfl

namespace Pattern

theorem fieldsScript_avoids (span : Span) (fields : List String) : (fieldsScript span fields).Avoids hidden := by
  induction fields with
  | nil => simp [fieldsScript]
  | cons field rest ih => simp [fieldsScript, ih]

mutual

/-- Patterns look up no names. -/
theorem script_avoids (limit : Nat) : (pattern : Pattern Span) → (pattern.script limit).Avoids hidden
  | .unit _ | .wildcard _ | .var _ _ | .integer _ _ | .hex _ _ | .float _ _ | .string _ _ | .char _ _ => by
      simp [script]
  | .tuple _ first second => by simp [script, script_avoids limit first, script_avoids limit second]
  | .triple _ first second third => by
    simp [script, script_avoids limit first, script_avoids limit second, script_avoids limit third]
  | .list _ items => by simp [script, itemsScript_avoids limit items]
  | .cons _ head tail => by simp [script, script_avoids limit head, script_avoids limit tail]
  | .record span fields => by simp [script, fieldsScript_avoids span fields]
  | .aliased _ inner _ | .parenthesized _ inner => by simp [script, script_avoids limit inner]

theorem itemsScript_avoids (limit : Nat) :
    (items : List (Pattern Span)) → (element : Ty) → (itemsScript limit element items).Avoids hidden
  | [], _ => by simp [itemsScript]
  | item :: rest, _ => by simp [itemsScript, script_avoids limit item, itemsScript_avoids limit rest]

end

end Pattern

end RowInference
