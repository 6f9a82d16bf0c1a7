import RowInference.Typing.Checker

/-! # Runs of computations

Unification, inference and the checker are computations with a state that may fail. A run of a sequence succeeds
when its parts do, one after the other.
-/

namespace RowInference

variable {ε σ α β : Type} {action : ExceptT ε (StateM σ) α} {next : α → ExceptT ε (StateM σ) β}

theorem bind_run (action : ExceptT ε (StateM σ) α) (next : α → ExceptT ε (StateM σ) β) (state : σ) :
    (action >>= next) state = match action state with
      | (.ok value, after) => next value after
      | (.error error, after) => (.error error, after) := by
  change (match action state with | (result, after) => ExceptT.bindCont next result after) = _
  rcases action state with ⟨result | result, after⟩ <;> rfl

/-- A success of two steps is a success of the first and one of the second after it. -/
theorem bind_eq_ok {state after : σ} {value : β} :
    (action >>= next) state = (.ok value, after) ↔
      ∃ first mid, action state = (.ok first, mid) ∧ next first mid = (.ok value, after) := by
  rw [bind_run]
  constructor
  · intro success
    split at success
    · next first mid ran => exact ⟨first, mid, ran, success⟩
    · cases success
  · rintro ⟨first, mid, ran, rest⟩
    rw [ran]
    exact rest

theorem pure_eq_ok {state after : σ} {value result : α} :
    (pure value : ExceptT ε (StateM σ) α) state = (.ok result, after) ↔ value = result ∧ state = after := by
  change ((Except.ok value : Except ε α), state) = (.ok result, after) ↔ _
  rw [Prod.mk.injEq, Except.ok.injEq]

theorem liftExcept_eq_ok {state after : σ} {result : Except ε α} {value : α} :
    (liftExcept result : ExceptT ε (StateM σ) α) state = (.ok value, after) ↔
      result = .ok value ∧ state = after := by
  cases result with
  | error error =>
    change ((Except.error error : Except ε α), state) = (.ok value, after) ↔ _
    simp
  | ok first =>
    change ((Except.ok first : Except ε α), state) = (.ok value, after) ↔ _
    rw [Prod.mk.injEq]

/-- A run that ends well has a value. -/
theorem exists_eq_ok {run : Except ε α × σ} (isOk : run.1.isOk = true) : ∃ value after, run = (.ok value, after) := by
  rcases run with ⟨_ | value, after⟩
  · cases isOk
  · exact ⟨value, after, rfl⟩

theorem throw_ne_ok {state after : σ} {error : ε} {value : α} :
    (throw error : ExceptT ε (StateM σ) α) state ≠ (.ok value, after) := by
  change ((Except.error error : Except ε α), state) ≠ (.ok value, after)
  simp

/-! ## Two runs side by side -/

/-- Two results: both failures with related errors, or both successes with related values. -/
def Except.Matches {ε α : Type} (alike : ε → ε → Prop) (same : α → α → Prop) (result other : Except ε α) : Prop :=
  (∃ error error', result = .error error ∧ other = .error error' ∧ alike error error') ∨
    ∃ value value', result = .ok value ∧ other = .ok value' ∧ same value value'

namespace Except.Matches

variable {alike : ε → ε → Prop}

theorem symm {same : α → α → Prop} {result other : Except ε α} (matching : Except.Matches alike same result other) :
    Except.Matches (flip alike) (flip same) other result := by
  rcases matching with ⟨error, error', failed, failed', isAlike⟩ | ⟨value, value', ran, ran', isSame⟩
  · exact .inl ⟨error', error, failed', failed, isAlike⟩
  · exact .inr ⟨value', value, ran', ran, isSame⟩

theorem imp {same weaker : α → α → Prop} {result other : Except ε α} (matching : Except.Matches alike same result other)
    (imp : ∀ value value', same value value' → weaker value value') : Except.Matches alike weaker result other := by
  rcases matching with failed | ⟨value, value', ran, ran', isSame⟩
  · exact .inl failed
  · exact .inr ⟨value, value', ran, ran', imp _ _ isSame⟩

end Except.Matches

/-- From related states both runs fail with related errors, or both succeed with related values and end in related
states. -/
def Follows (related : σ → σ → Prop) (alike : ε → ε → Prop) (same : α → α → Prop)
    (action other : ExceptT ε (StateM σ) α) : Prop :=
  ∀ state state', related state state' →
    (∃ error error' after after', action state = (.error error, after) ∧ other state' = (.error error', after') ∧
      alike error error') ∨
    ∃ value value' after after', action state = (.ok value, after) ∧ other state' = (.ok value', after') ∧
      same value value' ∧ related after after'

namespace Follows

variable {related : σ → σ → Prop} {alike : ε → ε → Prop} {same : α → α → Prop} {sameNext : β → β → Prop}

theorem pure {value value' : α} (isSame : same value value') :
    Follows related alike same (Pure.pure value : ExceptT ε (StateM σ) α) (Pure.pure value') :=
  fun state state' isRelated => .inr ⟨value, value', state, state', rfl, rfl, isSame, isRelated⟩

theorem throw {error error' : ε} (isAlike : alike error error') :
    Follows related alike same (MonadExcept.throw error : ExceptT ε (StateM σ) α) (MonadExcept.throw error') :=
  fun state state' _ => .inl ⟨error, error', state, state', rfl, rfl, isAlike⟩

theorem lift {result other : Except ε α} (matching : Except.Matches alike same result other) :
    Follows related alike same (liftExcept result : ExceptT ε (StateM σ) α) (liftExcept other) := by
  rcases matching with ⟨error, error', rfl, rfl, isAlike⟩ | ⟨value, value', rfl, rfl, isSame⟩
  · exact throw isAlike
  · exact pure isSame

/-- Runs that follow one another step by step follow one another as a whole. -/
theorem bind {action other : ExceptT ε (StateM σ) α} {next next' : α → ExceptT ε (StateM σ) β}
    (first : Follows related alike same action other)
    (rest : ∀ value value', same value value' → Follows related alike sameNext (next value) (next' value')) :
    Follows related alike sameNext (action >>= next) (other >>= next') := by
  intro state state' isRelated
  rw [bind_run, bind_run]
  rcases first state state' isRelated with
    ⟨error, error', after, after', ran, ran', isAlike⟩ | ⟨value, value', after, after', ran, ran', isSame, isRelated'⟩
  · rw [ran, ran']
    exact .inl ⟨error, error', after, after', rfl, rfl, isAlike⟩
  · rw [ran, ran']
    exact rest value value' isSame after after' isRelated'

end Follows

end RowInference
