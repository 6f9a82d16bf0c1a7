import RowInference.Proofs.Inference.Discipline
import RowInference.Proofs.Tree.Height

/-! # The limit on nesting

Every node of a tree passes the same guard, which counts the nodes around it and refuses to go deeper than a limit. So
the limit is a limit on heights: a tree that is not too high never meets it, one that is too high is never accepted, and
where the limit is not met a larger one makes no difference. `InferM.Guarded` says this of a part of an inference that
has a height of its own. A sequence has the height of its highest part, and a node adds one to it.
-/

namespace RowInference

variable {limit larger height : Nat} {α β : Type}

/-- The result is a refusal to go deeper. -/
def TooDeep : Except TypeError α → Prop
  | .error error => ∃ limit, error.fault = .tooDeep limit
  | .ok _ => False

theorem not_tooDeep_ok (value : α) : ¬TooDeep (.ok value : Except TypeError α) := id

/-- No failure of unification is a refusal to go deeper. -/
theorem not_tooDeep_ofUnify (error : UnifyError) (span : Span) :
    ¬TooDeep (.error ⟨.ofUnify error, span⟩ : Except TypeError α) := by
  rintro ⟨_, same⟩
  cases error <;> cases same

/-- An inference with a limit and the same one with a larger limit. There is room for it below the first limit, or
else it does not succeed; and if it is not refused, both are the same. -/
structure InferM.Guarded (limit height : Nat) (action relaxed : InferM α) : Prop where
  depth : ∀ state, (action state).2.depth = state.depth
  fits : ∀ state, state.depth + height ≤ limit → ¬TooDeep (action state).1
  refuses : ∀ state, state.depth ≤ limit → limit < state.depth + height → ∀ value, (action state).1 ≠ .ok value
  stable : ∀ state, ¬TooDeep (action state).1 → relaxed state = action state

namespace InferM.Guarded

theorem of_height {other : Nat} {action relaxed : InferM α} (guarded : Guarded limit other action relaxed)
    (same : other = height) : Guarded limit height action relaxed := same ▸ guarded

/-- A step that has nothing to do with nesting. -/
theorem step {action : InferM α} (depth : ∀ state, (action state).2.depth = state.depth)
    (never : ∀ state, ¬TooDeep (action state).1) : Guarded limit 0 action action where
  depth := depth
  fits state _ := never state
  refuses _ within beyond := absurd within (Nat.not_le_of_lt beyond)
  stable _ _ := rfl

theorem pure (value : α) : Guarded limit 0 (Pure.pure value) (Pure.pure value) :=
  step (fun _ => rfl) fun _ => not_tooDeep_ok value

theorem fail {fault : Fault} (span : Span) (other : ∀ limit, fault ≠ .tooDeep limit) :
    Guarded limit height (InferM.fail fault span : InferM α) (InferM.fail fault span) where
  depth _ := rfl
  fits _ _ := fun ⟨limit, same⟩ => other limit same
  refuses _ _ _ _ := by rintro ⟨⟩
  stable _ _ := rfl

/-- Of two steps the higher one counts. -/
theorem bind {first second : Nat} {action relaxed : InferM α} {next next' : α → InferM β}
    (here : Guarded limit first action relaxed) (rest : ∀ value, Guarded limit second (next value) (next' value)) :
    Guarded limit (max first second) (action >>= next) (relaxed >>= next') where
  depth state := by
    have kept := here.depth state
    rw [bind_run]
    rcases ran : action state with ⟨_ | value, mid⟩ <;> rw [ran] at kept
    · exact kept
    · exact ((rest value).depth mid).trans kept
  fits state room := by
    have kept := here.depth state
    have fits := here.fits state (by omega)
    rw [bind_run]
    rcases ran : action state with ⟨_ | value, mid⟩ <;> rw [ran] at kept fits
    · exact fits
    · exact (rest value).fits mid (by dsimp only at kept; omega)
  refuses state within beyond value := by
    have kept := here.depth state
    rw [bind_run]
    rcases ran : action state with ⟨_ | result, mid⟩ <;> rw [ran] at kept
    · rintro ⟨⟩
    · -- The first part has succeeded, so it is not the one that is too high.
      have low : ¬limit < state.depth + first := fun high => here.refuses state within high result (by rw [ran])
      dsimp only at kept
      exact (rest result).refuses mid (by omega) (by omega) value
  stable state notDeep := by
    have same := here.stable state
    rw [bind_run] at notDeep ⊢
    rw [bind_run]
    rcases ran : action state with ⟨_ | value, mid⟩ <;> rw [ran] at notDeep same
    · rw [same notDeep]
    · rw [same (not_tooDeep_ok value)]
      exact (rest value).stable mid notDeep

/-- A node is refused just if it lies inside as many others as the limit says. -/
theorem nested {action relaxed : InferM α} (le : limit ≤ larger) (span : Span)
    (inner : Guarded limit height action relaxed) :
    Guarded limit (height + 1) (InferM.nested limit span action) (InferM.nested larger span relaxed) where
  depth state := by
    rw [nested_run]
    split
    · rfl
    · dsimp only
      rw [inner.depth, Nat.add_sub_cancel]
  fits state room := by
    rw [nested_run, if_neg (by omega)]
    exact inner.fits { state with depth := state.depth + 1 } (by dsimp only; omega)
  refuses state within beyond value := by
    rw [nested_run]
    split
    · rintro ⟨⟩
    · exact inner.refuses { state with depth := state.depth + 1 } (by dsimp only; omega) (by dsimp only; omega) value
  stable state notDeep := by
    rw [nested_run] at notDeep
    rw [nested_run, nested_run]
    by_cases deep : state.depth ≥ limit
    · rw [if_pos deep] at notDeep
      exact absurd ⟨limit, rfl⟩ notDeep
    · rw [if_neg deep] at notDeep
      rw [if_neg deep, if_neg (by omega), inner.stable { state with depth := state.depth + 1 } notDeep]

theorem inScope {action relaxed : InferM α} (inner : Guarded limit height action relaxed) :
    Guarded limit height (InferM.inScope action) (InferM.inScope relaxed) where
  depth state := inner.depth { state with env := state.env.enter }
  fits state room := inner.fits { state with env := state.env.enter } room
  refuses state within beyond := inner.refuses { state with env := state.env.enter } within beyond
  stable state notDeep := by
    have same := inner.stable { state with env := state.env.enter } notDeep
    rw [InferM.inScope, InferM.inScope, same]

theorem group {action relaxed : InferM α} (inner : Guarded limit height action relaxed) :
    Guarded limit height (InferM.group action) (InferM.group relaxed) := by
  have cleared : Guarded limit 0 (modify fun state => { state with bound := [] } : InferM PUnit)
      (modify fun state => { state with bound := [] }) := step (fun _ => rfl) fun _ => not_tooDeep_ok _
  have collected (value : α) : Guarded limit 0 (do return (value, (← get).bound) : InferM (α × List (String × Ty)))
      (do return (value, (← get).bound)) := step (fun _ => rfl) fun _ => not_tooDeep_ok _
  exact (cleared.bind fun _ => inner.bind collected).of_height (by simp)

/-- A step without nodes needs no room. -/
theorem fresh (constraint : Option Constraint) :
    Guarded limit 0 (InferM.fresh constraint) (InferM.fresh constraint) :=
  step (fun _ => rfl) fun _ => not_tooDeep_ok _

theorem instantiate (scheme : Scheme) : Guarded limit 0 (InferM.instantiate scheme) (InferM.instantiate scheme) :=
  step (fun _ => rfl) fun _ => not_tooDeep_ok _

theorem lookup (name : String) (span : Span) : Guarded limit 0 (InferM.lookup name span) (InferM.lookup name span) := by
  refine step (fun state => ?_) fun state => ?_
  all_goals cases found : state.env.get? name
  · rw [lookup_run_of_none span found]
  · rw [lookup_run_of_some span found]
    rfl
  · rw [lookup_run_of_none span found]
    rintro ⟨_, ⟨⟩⟩
  · rw [lookup_run_of_some span found]
    exact not_tooDeep_ok _

theorem equate (expected actual : Ty) (span : Span) :
    Guarded limit 0 (InferM.equate expected actual span) (InferM.equate expected actual span) := by
  refine step (fun state => ?_) fun state => ?_
  all_goals
    rcases ran : unify (state.subst.apply expected) (state.subst.apply actual) state.supply with ⟨error | found, supply⟩
  · rw [equate_run_of_error span ran]
  · obtain ⟨_, run⟩ := equate_run_of_ok span ran
    rw [run]
  · rw [equate_run_of_error span ran]
    exact not_tooDeep_ofUnify error span
  · obtain ⟨_, run⟩ := equate_run_of_ok span ran
    rw [run]
    exact not_tooDeep_ok _

theorem declare (name : String) (scheme : Scheme) :
    Guarded limit 0 (InferM.declare name scheme) (InferM.declare name scheme) :=
  step (fun _ => rfl) fun _ => not_tooDeep_ok _

theorem bindName (name : String) (type : Ty) (span : Span) :
    Guarded limit 0 (InferM.bindName name type span) (InferM.bindName name type span) := by
  refine step (fun state => ?_) fun state => ?_
  all_goals
    rw [bindName_run]
    split
  · rfl
  · rfl
  · rintro ⟨_, ⟨⟩⟩
  · exact not_tooDeep_ok _

theorem declareAll (names : List (String × Ty)) :
    Guarded limit 0 (InferM.declareAll names) (InferM.declareAll names) := by
  induction names with
  | nil => exact pure ()
  | cons entry rest ih => exact (declare entry.1 _).bind fun _ => ih

theorem forget : Guarded limit 0 InferM.forget InferM.forget := step (fun _ => rfl) fun _ => not_tooDeep_ok _

theorem takeSubst : Guarded limit 0 InferM.takeSubst InferM.takeSubst := step (fun _ => rfl) fun _ => not_tooDeep_ok _

theorem report (event : Event) : Guarded limit 0 (InferM.report event) (InferM.report event) :=
  step (fun _ => rfl) fun _ => not_tooDeep_ok _

theorem getState : Guarded limit 0 (get : InferM InferState) get := step (fun _ => rfl) fun _ => not_tooDeep_ok _

end InferM.Guarded

open InferM (Guarded)
open InferM.Guarded
    (nested fresh instantiate lookup equate declare bindName declareAll forget takeSubst report getState)

/-! ## Patterns -/

namespace Pattern

theorem inferFields_guarded (span : Span) (fields : List String) :
    Guarded limit 0 (inferFields span fields) (inferFields span fields) := by
  induction fields with
  | nil => exact .pure []
  | cons field rest ih =>
    exact (fresh none).bind fun type => (bindName field type span).bind fun _ => ih.bind fun _ => .pure _

mutual

/-- The guard counts the height of a pattern. -/
theorem infer_guarded (le : limit ≤ larger) : ∀ pattern : Pattern Span,
    Guarded limit pattern.height (pattern.infer limit) (pattern.infer larger)
  | .unit span | .float span _ | .string span _ | .char span _ => nested le span (.pure _)
  | .wildcard span => nested le span ((fresh none).bind fun _ => .pure _)
  | .integer span _ | .hex span _ => nested le span ((fresh (some .number)).bind fun _ => .pure _)
  | .var span name => nested le span ((fresh none).bind fun type => (bindName name type span).bind fun _ => .pure _)
  | .tuple span first second =>
    (nested le span ((infer_guarded le first).bind fun _ => (infer_guarded le second).bind fun _ => .pure _)).of_height
      (by simp [height])
  | .triple span first second third =>
    (nested le span ((infer_guarded le first).bind fun _ => (infer_guarded le second).bind fun _ =>
      (infer_guarded le third).bind fun _ => .pure _)).of_height (by simp [height])
  | .list span items =>
    (nested le span ((fresh none).bind fun element => (inferItems_guarded le element items).bind fun _ =>
      .pure _)).of_height (by simp [height])
  | .cons span head tail =>
    (nested le span ((infer_guarded le head).bind fun _ => (infer_guarded le tail).bind fun _ =>
      (equate _ _ _).bind fun _ => .pure _)).of_height (by simp [height])
  | .record span fields =>
      nested le span ((fresh none).bind fun _ => (inferFields_guarded span fields).bind fun _ => .pure _)
  | .aliased span inner name =>
    (nested le span ((infer_guarded le inner).bind fun _ => (bindName name _ span).bind fun _ => .pure _)).of_height
      (by simp [height])
  | .parenthesized span inner =>
    (nested le span ((infer_guarded le inner).bind fun _ => .pure _)).of_height (by simp [height])

theorem inferItems_guarded (le : limit ≤ larger) (element : Ty) : ∀ items : List (Pattern Span),
    Guarded limit (heightOf items) (inferItems limit element items) (inferItems larger element items)
  | [] => .pure _
  | item :: rest =>
    ((infer_guarded le item).bind fun _ => (equate _ _ _).bind fun _ =>
      (inferItems_guarded le element rest).bind fun _ =>
      .pure _).of_height (by simp [heightOf])

end

theorem inferAll_guarded (le : limit ≤ larger) (patterns : List (Pattern Span)) :
    Guarded limit (heightOf patterns) (inferAll limit patterns) (inferAll larger patterns) := by
  induction patterns with
  | nil => exact .pure _
  | cons pattern rest ih =>
    exact ((infer_guarded le pattern).bind fun _ => ih.bind fun _ => .pure _).of_height (by simp [heightOf])

end Pattern

/-! ## Expressions -/

namespace Expr

open InferM.Guarded (inScope group)

theorem inferParams_guarded (le : limit ≤ larger) (params : List (Pattern Span)) :
    Guarded limit (Pattern.heightOf params) (inferParams limit params) (inferParams larger params) :=
  ((group (Pattern.inferAll_guarded le params)).bind fun found => (declareAll found.2).bind fun _ => .pure _).of_height
    (by simp)

theorem takeNames_guarded (span : Span) (seen : List String) (names : List (String × Ty)) :
    Guarded limit 0 (takeNames span seen names) (takeNames span seen names) := by
  induction names generalizing seen with
  | nil => exact .pure _
  | cons entry rest ih =>
    rw [takeNames]
    split
    · exact .fail span (by simp)
    · exact ih _

section Parts

variable {infer infer' : InferM (Expr Typed)} (inner : Guarded limit height infer infer')

include inner

theorem inferArg_guarded (function : Ty) : Guarded limit height (inferArg function infer) (inferArg function infer') :=
  (inner.bind fun _ => (fresh none).bind fun _ => (equate _ _ _).bind fun _ => .pure _).of_height (by simp)

theorem inferFunction_guarded (le : limit ≤ larger) (params : List (Pattern Span)) :
    Guarded limit (max (Pattern.heightOf params) height) (inferFunction limit params infer)
      (inferFunction larger params infer') :=
  (inScope ((inferParams_guarded le params).bind fun _ => inner.bind fun _ => .pure _)).of_height (by simp)

theorem inferLocal_guarded (le : limit ≤ larger) (seen : List String) (name : String) (place : Span)
    (params : List (Pattern Span)) : Guarded limit (max (Pattern.heightOf params) height)
      (inferLocal limit seen name place params infer) (inferLocal larger seen name place params infer') := by
  rw [inferLocal, inferLocal]
  split
  · exact .fail place (by simp)
  · exact ((fresh none).bind fun self => (declare name (Scheme.mono self)).bind fun _ =>
      (inferFunction_guarded inner le params).bind fun _ => (equate _ _ _).bind fun _ => .pure _).of_height (by simp)

theorem inferBranch_guarded (le : limit ≤ larger) (subject result : Ty) (pattern : Pattern Span) :
    Guarded limit (max pattern.height height) (inferBranch limit subject result pattern infer)
      (inferBranch larger subject result pattern infer') :=
  (inScope ((group (Pattern.infer_guarded le pattern)).bind fun found => (equate _ _ _).bind fun _ =>
    (declareAll found.2).bind fun _ => inner.bind fun _ => (equate _ _ _).bind fun _ => .pure _)).of_height (by simp)

end Parts

mutual

/-- The guard counts the height of an expression. -/
theorem infer_guarded (le : limit ≤ larger) : ∀ expr : Expr Span,
    Guarded limit expr.height (expr.infer limit) (expr.infer larger)
  | .unit span | .float span _ | .string span _ | .char span _ => nested le span (.pure _)
  | .integer span _ | .hex span _ => nested le span ((fresh (some .number)).bind fun _ => .pure _)
  | .var span name => nested le span ((lookup name span).bind fun _ => .pure _)
  | .tuple span first second =>
    (nested le span ((infer_guarded le first).bind fun _ => (infer_guarded le second).bind fun _ => .pure _)).of_height
      (by simp [height])
  | .triple span first second third =>
    (nested le span ((infer_guarded le first).bind fun _ => (infer_guarded le second).bind fun _ =>
      (infer_guarded le third).bind fun _ => .pure _)).of_height (by simp [height])
  | .list span items =>
    (nested le span ((fresh none).bind fun element => (inferItems_guarded le element items).bind fun _ =>
      .pure _)).of_height (by simp [height])
  | .lambda span params body =>
    (nested le span ((inferFunction_guarded (infer_guarded le body) le params).bind fun _ => .pure _)).of_height
      (by simp [height])
  | .record span fields =>
    (nested le span ((inferFields_guarded le fields).bind fun _ => .pure _)).of_height (by simp [height])
  | .accessor span _ => nested le span ((fresh none).bind fun _ => (fresh none).bind fun _ => .pure _)
  | .access span subject _ =>
    (nested le span ((infer_guarded le subject).bind fun _ => (fresh none).bind fun _ => (fresh none).bind fun _ =>
      (equate _ _ _).bind fun _ => .pure _)).of_height (by simp [height])
  | .update span name updates =>
    (nested le span ((lookup name span).bind fun _ => (inferFields_guarded le updates).bind fun _ =>
      (fresh none).bind fun _ => (equate _ _ _).bind fun _ => .pure _)).of_height (by simp [height])
  | .parenthesized span inner =>
    (nested le span ((infer_guarded le inner).bind fun _ => .pure _)).of_height (by simp [height])
  | .application span function args =>
    (nested le span ((infer_guarded le function).bind fun function => (inferArgs_guarded le function.type args).bind
      fun _ => .pure _)).of_height (by simp [height])
  | .operation span op left right =>
    (nested le span ((instantiate _).bind fun type => (inferArg_guarded (infer_guarded le left) type).bind fun left =>
      (inferArg_guarded (infer_guarded le right) left.2).bind fun _ => .pure _)).of_height (by simp [height])
  | .operator span op => nested le span ((instantiate _).bind fun _ => .pure _)
  | .negate span inner =>
    (nested le span ((infer_guarded le inner).bind fun _ => (fresh (some .number)).bind fun _ =>
      (equate _ _ _).bind fun _ => .pure _)).of_height (by simp [height])
  | .conditional span condition thenBranch elseBranch =>
    (nested le span ((infer_guarded le condition).bind fun _ => (equate _ _ _).bind fun _ =>
      (infer_guarded le thenBranch).bind fun _ => (infer_guarded le elseBranch).bind fun _ =>
        (equate _ _ _).bind fun _ => .pure _)).of_height (by simp [height])
  | .letIn span bindings body =>
    (nested le span
      ((inScope ((inferBindings_guarded le [] bindings).bind fun _ => (infer_guarded le body).bind fun _ =>
      .pure _)).bind fun _ => .pure _)).of_height (by simp [height])
  | .caseOf span subject branches =>
    (nested le span ((infer_guarded le subject).bind fun subject => (fresh none).bind fun result =>
      (inferBranches_guarded le subject.type result branches).bind fun _ => .pure _)).of_height (by simp [height])
  | .glsl span _ => nested le span (.fail span (by simp))

theorem inferArgs_guarded (le : limit ≤ larger) (function : Ty) : ∀ args : List (Expr Span),
    Guarded limit (itemsHeight args) (inferArgs limit function args) (inferArgs larger function args)
  | [] => .pure _
  | arg :: rest =>
    ((inferArg_guarded (infer_guarded le arg) function).bind fun arg => (inferArgs_guarded le arg.2 rest).bind fun _ =>
      .pure _).of_height (by simp [itemsHeight])

theorem inferItems_guarded (le : limit ≤ larger) (element : Ty) : ∀ items : List (Expr Span),
    Guarded limit (itemsHeight items) (inferItems limit element items) (inferItems larger element items)
  | [] => .pure _
  | item :: rest =>
    ((infer_guarded le item).bind fun _ => (equate _ _ _).bind fun _ =>
      (inferItems_guarded le element rest).bind fun _ =>
      .pure _).of_height (by simp [itemsHeight])

theorem inferFields_guarded (le : limit ≤ larger) : ∀ fields : List (Field Span),
    Guarded limit (fieldsHeight fields) (inferFields limit fields) (inferFields larger fields)
  | [] => .pure _
  | .mk _ value :: rest =>
    ((infer_guarded le value).bind fun _ => (inferFields_guarded le rest).bind fun _ => .pure _).of_height
      (by simp [fieldsHeight])

theorem inferBranches_guarded (le : limit ≤ larger) (subject result : Ty) : ∀ branches : List (Branch Span),
    Guarded limit (branchesHeight branches) (inferBranches limit subject result branches)
      (inferBranches larger subject result branches)
  | [] => .pure _
  | .mk pattern body :: rest =>
    ((inferBranch_guarded (infer_guarded le body) le subject result pattern).bind fun _ =>
      (inferBranches_guarded le subject result rest).bind fun _ => .pure _).of_height
        (by simp [branchesHeight, Nat.max_assoc])

theorem inferBindings_guarded (le : limit ≤ larger) (seen : List String) : ∀ bindings : List (Binding Span),
    Guarded limit (bindingsHeight bindings) (inferBindings limit seen bindings) (inferBindings larger seen bindings)
  | [] => .pure _
  | .function name params body :: rest =>
    ((inferLocal_guarded (infer_guarded le body) le seen name body.info params).bind fun _ =>
      (inferBindings_guarded le (seen ++ [name]) rest).bind fun _ => .pure _).of_height
        (by simp [bindingsHeight, Nat.max_assoc])
  | .destructuring pattern body :: rest =>
    ((infer_guarded le body).bind fun _ => (group (Pattern.infer_guarded le pattern)).bind fun found =>
      (equate _ _ _).bind fun _ => (takeNames_guarded _ seen found.2).bind fun seen =>
        (declareAll found.2).bind fun _ =>
        (inferBindings_guarded le seen rest).bind fun _ => .pure _).of_height
          (by simp [bindingsHeight, Nat.max_left_comm])

end

/-- An expression that stands alone needs as much room as it is high. -/
theorem inferClosed_guarded (le : limit ≤ larger) (expr : Expr Span) :
    Guarded limit expr.height (expr.inferClosed limit) (expr.inferClosed larger) :=
  (forget.bind fun _ => (infer_guarded le expr).bind fun _ => takeSubst.bind fun _ => .pure _).of_height (by simp)

end Expr

/-! ## Declarations -/

namespace Declaration

open InferM.Guarded (inScope)

/-- A declaration needs as much room as the highest of its parameters and its body. -/
theorem inferBody_guarded (le : limit ≤ larger) (self : Ty) (declaration : Declaration Span) :
    Guarded limit declaration.height (inferBody limit self declaration) (inferBody larger self declaration) :=
  (inScope ((declare declaration.name _).bind fun _ => (Expr.inferParams_guarded le declaration.params).bind fun _ =>
    (Expr.infer_guarded le declaration.body).bind fun _ => (equate _ _ _).bind fun _ => .pure _)).of_height
      (by simp [height])

/-- The guard counts the height of the highest parameter or of the body. -/
theorem infer_guarded (le : limit ≤ larger) (declaration : Declaration Span) :
    Guarded limit declaration.height (declaration.infer limit) (declaration.infer larger) :=
  (forget.bind fun _ => (fresh none).bind fun self => (inferBody_guarded le self declaration).bind fun _ =>
    takeSubst.bind fun _ => getState.bind fun _ => (report _).bind fun _ => (declare declaration.name _).bind fun _ =>
      .pure _).of_height (by simp)

end Declaration

end RowInference
