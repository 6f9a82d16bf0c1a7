import RowInference.Proofs.Inference.Discipline
import RowInference.Proofs.Tree.Annotation
import RowInference.Proofs.Types.Variants
import RowInference.Proofs.Unification.Shift

/-! # Inference does not see the numbers of variables

Two runs of one inference, in states that differ only in how many variables have been issued, go side by side: both
fail, or both succeed, and then their types differ only in the numbers of variables. The schemes in scope need not
differ by the same constant; it is enough that their uses do.
-/

namespace RowInference

variable {offset : Nat} {α β : Type}

/-! ## Environments -/

theorem of_optionRel {same : α → β → Prop} {left : Option α} {right : Option β} (rel : Option.Rel same left right) :
    (left = none ∧ right = none) ∨ ∃ value value', left = some value ∧ right = some value' ∧ same value value' := by
  rcases rel with isSame | _
  · exact .inr ⟨_, _, rfl, rfl, isSame⟩
  · exact .inl ⟨rfl, rfl⟩

/-- The schemes under each name are related, and the same names are bound. -/
def Scope.Rel (same : Scheme → Scheme → Prop) (scope other : Scope) : Prop :=
  ∀ name : String, Option.Rel same scope[name]? other[name]?

/-- The scopes are related one by one. -/
def Environment.Rel (same : Scheme → Scheme → Prop) (env other : Environment) : Prop :=
  List.Forall₂ (Scope.Rel same) env.scopes other.scopes

namespace Environment.Rel

variable {same : Scheme → Scheme → Prop} {env other : Environment}

/-- What a name means in related environments is related. -/
theorem get? (rel : env.Rel same other) (name : String) : Option.Rel same (env.get? name) (other.get? name) := by
  have general : ∀ {scopes others : List Scope}, List.Forall₂ (Scope.Rel same) scopes others →
      Option.Rel same (scopes.findSome? fun scope => scope[name]?) (others.findSome? fun scope => scope[name]?) := by
    intro scopes others related
    induction related with
    | nil => exact .none
    | @cons scope other rest others here _ ih =>
      rw [List.findSome?_cons, List.findSome?_cons]
      rcases of_optionRel (here name) with ⟨missing, missing'⟩ | ⟨scheme, scheme', found, found', isSame⟩
      · rw [missing, missing']
        exact ih
      · rw [found, found']
        exact .some isSame
  exact general rel

theorem add (rel : env.Rel same other) (name : String) {scheme scheme' : Scheme} (isSame : same scheme scheme') :
    (env.add name scheme).Rel same (other.add name scheme') := by
  obtain ⟨here, outer⟩ := List.forall₂_cons.mp rel
  refine .cons (fun key => ?_) outer
  change Option.Rel same (env.inner.insert name scheme)[key]? (other.inner.insert name scheme')[key]?
  rw [Std.ExtTreeMap.getElem?_insert, Std.ExtTreeMap.getElem?_insert]
  split
  · exact .some isSame
  · exact here key

theorem enter (rel : env.Rel same other) : env.enter.Rel same other.enter := by
  refine .cons (fun name => ?_) rel
  change Option.Rel same (∅ : Scope)[name]? (∅ : Scope)[name]?
  rw [Std.ExtTreeMap.getElem?_empty]
  exact .none

theorem exit (rel : env.Rel same other) : env.exit.Rel same other.exit := by
  obtain ⟨inner, outer⟩ := env
  obtain ⟨inner', outer'⟩ := other
  obtain ⟨here, outers⟩ := List.forall₂_cons.mp rel
  cases outers with
  | nil => exact rel
  | cons scope rest => exact .cons scope rest

theorem imp {weaker : Scheme → Scheme → Prop} (rel : env.Rel same other)
    (imp : ∀ scheme scheme', same scheme scheme' → weaker scheme scheme') : env.Rel weaker other := by
  refine List.Forall₂.imp (fun scope other related name => ?_) rel
  rcases of_optionRel (related name) with ⟨missing, missing'⟩ | ⟨scheme, scheme', found, found', isSame⟩
  · rw [missing, missing']
    exact .none
  · rw [found, found']
    exact .some (imp _ _ isSame)

theorem symm (rel : env.Rel same other) : other.Rel (flip same) env := by
  refine (List.Forall₂.imp (fun scope other related name => ?_) rel).flip
  rcases of_optionRel (related name) with ⟨missing, missing'⟩ | ⟨scheme, scheme', found, found', isSame⟩
  · rw [missing, missing']
    exact .none
  · rw [found, found']
    exact .some isSame

end Environment.Rel

/-! ## States -/

/-- Every use of the second scheme with a later supply has the shifted type of a use of the first one. -/
def Scheme.Shifted (offset : Nat) (scheme other : Scheme) : Prop := ∀ supply : Supply,
  other.instantiate (supply.shift offset) =
    ((scheme.instantiate supply).1.shift offset, (scheme.instantiate supply).2.shift offset)

theorem Scheme.shifted_mono (type : Ty) : (mono type).Shifted offset (mono (type.shift offset)) := fun _ => rfl

/-- A scheme without free variables has the same uses everywhere, but for the numbers of variables. -/
theorem Scheme.NoFree.shifted {scheme : Scheme} (noFree : scheme.NoFree) : scheme.Shifted offset scheme :=
  noFree.instantiate_supply_shift

theorem Prelude.operatorScheme_shifted (op : Operator) :
    (operatorScheme op).Shifted offset (operatorScheme op) := by
  refine Scheme.NoFree.shifted ?_
  cases op <;> exact Scheme.closed_noFree _

/-- The second state is the first one with a later supply. -/
structure InferState.Shifted (offset : Nat) (state other : InferState) : Prop where
  env : state.env.Rel (Scheme.Shifted offset) other.env
  subst : other.subst = state.subst.shift offset
  supply : other.supply = state.supply.shift offset
  depth : other.depth = state.depth
  bound : other.bound = state.bound.map fun entry => (entry.1, entry.2.shift offset)

def Fault.shift (offset : Nat) : Fault → Fault
  | mismatch expected actual => mismatch (expected.shift offset) (actual.shift offset)
  | infinite v type => infinite (v.shift offset) (type.shift offset)
  | fault => fault

/-- Shifting types does not change the kind of a fault. -/
theorem Fault.kind_shift (fault : Fault) : (fault.shift offset).kind = fault.kind := by
  cases fault <;> rfl

theorem Fault.shift_ofUnify (error : UnifyError) : (ofUnify error).shift offset = ofUnify (error.shift offset) := by
  cases error <;> rfl

def TypeError.shift (offset : Nat) (error : TypeError) : TypeError := { error with fault := error.fault.shift offset }

variable (offset) in
/-- A run and one with a later supply; `move` is what the later supply does to the result. -/
abbrev InferM.Shifts (move : α → α) : InferM α → InferM α → Prop :=
  Follows (InferState.Shifted offset) (fun error error' => error' = error.shift offset) fun value value' =>
    value' = move value

namespace InferM.Shifts

/-- Steps that shift one after the other shift together. -/
theorem bind {action other : InferM α} {next next' : α → InferM β} {move : α → α} {moveNext : β → β}
    (first : Shifts offset move action other)
    (rest : ∀ value, Shifts offset moveNext (next value) (next' (move value))) :
    Shifts offset moveNext (action >>= next) (other >>= next') :=
  Follows.bind first fun value _ isMoved => isMoved ▸ rest value

theorem fail {move : α → α} {fault fault' : Fault} (isFault : fault' = fault.shift offset) {span span' : Span}
    (placed : span' = span) : Shifts offset move (InferM.fail fault span) (InferM.fail fault' span') :=
  Follows.throw (by rw [isFault, placed, TypeError.shift])

/-- The next variable has a larger number by as much as the supply is ahead. -/
theorem fresh (constraint : Option Constraint) :
    Shifts offset (Ty.shift offset) (InferM.fresh constraint) (InferM.fresh constraint) := by
  intro state other shifted
  rw [fresh_run, fresh_run, shifted.supply]
  refine .inr ⟨_, _, _, _, rfl, rfl, ?_, { shifted with supply := ?_ }⟩
  · simp [Ty.shift, TypeVar.shift, VarId.shift, Supply.shift]
  · simp [Supply.shift, Nat.add_right_comm]

theorem instantiate {scheme scheme' : Scheme} (shifted : scheme.Shifted offset scheme') :
    Shifts offset (Ty.shift offset) (InferM.instantiate scheme) (InferM.instantiate scheme') := by
  intro state other states
  rw [instantiate_run, instantiate_run, states.supply, shifted]
  exact .inr ⟨_, _, _, _, rfl, rfl, rfl, { states with supply := rfl }⟩

/-- A name is used at a shifted type. -/
theorem lookup (name : String) (span : Span) :
    Shifts offset (Ty.shift offset) (InferM.lookup name span) (InferM.lookup name span) := by
  intro state other states
  rcases of_optionRel (states.env.get? name) with ⟨missing, missing'⟩ | ⟨scheme, scheme', found, found', shifted⟩
  · rw [lookup_run_of_none span missing, lookup_run_of_none span missing']
    exact .inl ⟨_, _, _, _, rfl, rfl, rfl⟩
  · rw [lookup_run_of_some span found, lookup_run_of_some span found']
    exact instantiate shifted state other states

/-- Shifted types are equated in the same way, and what is learnt is shifted. -/
theorem equate {expected expected' actual actual' : Ty} {span span' : Span} (placed : span' = span)
    (isExpected : expected' = expected.shift offset) (isActual : actual' = actual.shift offset) :
    Shifts offset id (InferM.equate expected actual span) (InferM.equate expected' actual' span') := by
  subst isExpected isActual placed
  intro state other states
  have unified := unify_shift offset (state.subst.apply expected) (state.subst.apply actual) state.supply _ rfl
  rw [Substitution.shift_apply, Substitution.shift_apply, ← states.subst, ← states.supply] at unified
  rcases unified with ⟨error, _, after, after', failed, failed', rfl⟩ | ⟨found, _, after, _, ran, ran', rfl, rfl⟩
  · rw [equate_run_of_error span' failed, equate_run_of_error span' failed', ← Fault.shift_ofUnify]
    exact .inl ⟨_, _, _, _, rfl, rfl, rfl⟩
  · obtain ⟨events, run⟩ := equate_run_of_ok span' ran
    obtain ⟨events', run'⟩ := equate_run_of_ok span' ran'
    rw [run, run']
    refine .inr ⟨_, _, _, _, rfl, rfl, rfl, { states with subst := ?_, supply := rfl }⟩
    rw [states.subst, Substitution.shift_extend]

theorem declare (name : String) {scheme scheme' : Scheme} (shifted : scheme.Shifted offset scheme') :
    Shifts offset id (InferM.declare name scheme) (InferM.declare name scheme') :=
  fun _ _ states => .inr ⟨_, _, _, _, rfl, rfl, rfl, { states with env := states.env.add name shifted }⟩

theorem bindName (name : String) {type type' : Ty} (span : Span) (isType : type' = type.shift offset) :
    Shifts offset id (InferM.bindName name type span) (InferM.bindName name type' span) := by
  subst isType
  intro state other states
  have known : (other.bound.any fun entry => entry.1 == name) = state.bound.any fun entry => entry.1 == name := by
    rw [states.bound, List.any_map]
    rfl
  rw [bindName_run, bindName_run, known]
  split
  · exact .inl ⟨_, _, _, _, rfl, rfl, rfl⟩
  · refine .inr ⟨_, _, _, _, rfl, rfl, rfl, { states with bound := ?_ }⟩
    simp [states.bound]

theorem nested {action other : InferM α} {move : α → α} (limit : Nat) (span : Span)
    (inner : Shifts offset move action other) :
    Shifts offset move (InferM.nested limit span action) (InferM.nested limit span other) := by
  intro state state' states
  rw [nested_run, nested_run, states.depth]
  split
  · exact .inl ⟨_, _, _, _, rfl, rfl, rfl⟩
  · rcases inner { state with depth := state.depth + 1 } { state' with depth := state.depth + 1 }
      { states with depth := rfl } with
      ⟨error, error', after, after', ran, ran', isShift⟩ | ⟨value, value', after, after', ran, ran', isMoved, shifted⟩
    · rw [ran, ran']
      exact .inl ⟨_, _, _, _, rfl, rfl, isShift⟩
    · rw [ran, ran']
      exact .inr ⟨_, _, _, _, rfl, rfl, isMoved, { shifted with depth := by rw [shifted.depth] }⟩

/-- Both runs leave the scope at the end. -/
theorem inScope {action other : InferM α} {move : α → α} (inner : Shifts offset move action other) :
    Shifts offset move (InferM.inScope action) (InferM.inScope other) := by
  intro state state' states
  rw [inScope_run, inScope_run]
  rcases inner { state with env := state.env.enter } { state' with env := state'.env.enter }
    { states with env := states.env.enter } with
    ⟨error, error', after, after', ran, ran', isShift⟩ | ⟨value, value', after, after', ran, ran', isMoved, shifted⟩
  · rw [ran, ran']
    exact .inl ⟨_, _, _, _, rfl, rfl, isShift⟩
  · rw [ran, ran']
    exact .inr ⟨_, _, _, _, rfl, rfl, isMoved, { shifted with env := shifted.env.exit }⟩

variable (offset) in
def moveNames : List (String × Ty) → List (String × Ty) := List.map fun entry => (entry.1, entry.2.shift offset)

/-- The names of a group get shifted types. -/
theorem group {action other : InferM α} {move : α → α} (inner : Shifts offset move action other) :
    Shifts offset (Prod.map move (moveNames offset)) (InferM.group action) (InferM.group other) := by
  intro state state' states
  rw [group_run, group_run]
  rcases inner { state with bound := [] } { state' with bound := [] } { states with bound := rfl } with
    ⟨error, error', after, after', ran, ran', isShift⟩ | ⟨value, value', after, after', ran, ran', isMoved, shifted⟩
  · rw [ran, ran']
    exact .inl ⟨_, _, _, _, rfl, rfl, isShift⟩
  · rw [ran, ran']
    exact .inr ⟨_, _, _, _, rfl, rfl, Prod.ext isMoved shifted.bound, shifted⟩

theorem declareAll (names : List (String × Ty)) :
    Shifts offset id (InferM.declareAll names) (InferM.declareAll (moveNames offset names)) := by
  induction names with
  | nil => exact .pure rfl
  | cons entry rest ih => exact (declare entry.1 (Scheme.shifted_mono entry.2)).bind fun _ => ih

end InferM.Shifts

/-! ## Trees -/

def Typed.shift (offset : Nat) (typed : Typed) : Typed := { typed with scheme := typed.scheme.shift offset }

@[simp] theorem Typed.shift_mono (span : Span) (type : Ty) :
    (Typed.mono span type).shift offset = .mono span (type.shift offset) := by
  simp only [Typed.shift, Typed.mono, Scheme.mono, Scheme.shift, List.map_nil]

@[simp] theorem Typed.shift_type (typed : Typed) : (typed.shift offset).type = typed.type.shift offset := rfl

variable (offset) in
abbrev Pattern.shift : Pattern Typed → Pattern Typed := Pattern.mapInfo (Typed.shift offset)

variable (offset) in
abbrev Expr.shift : Expr Typed → Expr Typed := Expr.mapInfo (Typed.shift offset)

@[simp] theorem Pattern.type_shift (pattern : Pattern Typed) :
    (pattern.shift offset).type = pattern.type.shift offset := by
  rw [Pattern.type, Pattern.info_mapInfo, Typed.shift_type]

@[simp] theorem Expr.type_shift (expr : Expr Typed) : (expr.shift offset).type = expr.type.shift offset := by
  rw [Expr.type, Expr.info_mapInfo, Typed.shift_type]

@[simp] theorem Pattern.span_shift (pattern : Pattern Typed) :
    (pattern.shift offset).info.span = pattern.info.span := by
  rw [Pattern.info_mapInfo]
  rfl

@[simp] theorem Expr.span_shift (expr : Expr Typed) : (expr.shift offset).info.span = expr.info.span := by
  rw [Expr.info_mapInfo]
  rfl

/-- The type of a function is shifted like its parts. -/
theorem functionType_shift (params : List (Pattern Typed)) (body : Expr Typed) :
    functionType (params.map (Pattern.shift offset)) (body.shift offset) = (functionType params body).shift offset := by
  simp [functionType, Ty.shift_curried, Function.comp_def]

open InferM (Shifts)
open InferM.Shifts (moveNames fresh lookup equate bindName nested)

namespace Pattern

theorem inferFields_shifts (span : Span) (fields : List String) :
    Shifts offset (moveNames offset) (inferFields span fields) (inferFields span fields) := by
  induction fields with
  | nil => exact .pure rfl
  | cons field rest ih =>
    refine (fresh none).bind fun type => ?_
    refine (bindName field span rfl).bind fun _ => ?_
    exact ih.bind fun rest => .pure rfl

mutual

/-- The types of a pattern are shifted. -/
theorem infer_shifts (limit : Nat) : ∀ pattern : Pattern Span,
    Shifts offset (shift offset) (pattern.infer limit) (pattern.infer limit)
  | .unit span | .float span _ | .string span _ | .char span _ => nested limit span (.pure rfl)
  | .wildcard span => nested limit span ((fresh none).bind fun _ => .pure rfl)
  | .var span name =>
    nested limit span ((fresh none).bind fun _ => (bindName name span rfl).bind fun _ => .pure rfl)
  | .integer span _ | .hex span _ => nested limit span ((fresh (some .number)).bind fun _ => .pure rfl)
  | .tuple span first second =>
    nested limit span ((infer_shifts limit first).bind fun _ => (infer_shifts limit second).bind fun _ =>
      .pure (by simp [Ty.shift]))
  | .triple span first second third =>
    nested limit span ((infer_shifts limit first).bind fun _ => (infer_shifts limit second).bind fun _ =>
      (infer_shifts limit third).bind fun _ => .pure (by simp [Ty.shift]))
  | .list span items =>
    nested limit span ((fresh none).bind fun element => (inferItems_shifts limit element items).bind fun _ =>
      .pure (by simp [Ty.shift]))
  | .cons span head tail =>
    nested limit span ((infer_shifts limit head).bind fun _ => (infer_shifts limit tail).bind fun _ =>
      (equate (span_shift _) (by simp [Ty.shift]) (by simp)).bind fun _ => .pure (by simp [Ty.shift]))
  | .record span fields =>
    nested limit span ((fresh none).bind fun _ => (inferFields_shifts span fields).bind fun _ =>
      .pure (by simp [Ty.shift, Row.shift_ofList, moveNames]))
  | .aliased span inner name =>
    nested limit span ((infer_shifts limit inner).bind fun _ => (bindName name span (by simp)).bind fun _ =>
      .pure (by simp))
  | .parenthesized span inner => nested limit span ((infer_shifts limit inner).bind fun _ => .pure (by simp))

theorem inferItems_shifts (limit : Nat) (element : Ty) : ∀ items : List (Pattern Span),
    Shifts offset (List.map (shift offset)) (inferItems limit element items)
      (inferItems limit (element.shift offset) items)
  | [] => .pure rfl
  | item :: rest => (infer_shifts limit item).bind fun _ => (equate (span_shift _) rfl (by simp)).bind fun _ =>
    (inferItems_shifts limit element rest).bind fun _ => .pure (by simp)

end

theorem inferAll_shifts (limit : Nat) (patterns : List (Pattern Span)) :
    Shifts offset (List.map (shift offset)) (inferAll limit patterns) (inferAll limit patterns) := by
  induction patterns with
  | nil => exact .pure rfl
  | cons pattern rest ih => exact (infer_shifts limit pattern).bind fun _ => ih.bind fun _ => .pure (by simp)

end Pattern

namespace Expr

open InferM.Shifts (instantiate declare inScope group declareAll)

/-- Parameters get shifted types, and so do their names. -/
theorem inferParams_shifts (limit : Nat) (params : List (Pattern Span)) :
    Shifts offset (List.map (Pattern.shift offset)) (inferParams limit params) (inferParams limit params) :=
  (group (Pattern.inferAll_shifts limit params)).bind fun (_, names) => (declareAll names).bind fun _ => .pure rfl

theorem takeNames_shifts {span span' : Span} (placed : span' = span) (seen : List String) (names : List (String × Ty)) :
    Shifts offset id (takeNames span seen names) (takeNames span' seen (moveNames offset names)) := by
  induction names generalizing seen with
  | nil => exact .pure rfl
  | cons entry rest ih =>
    simp only [takeNames, moveNames, List.map_cons]
    split
    · exact .fail rfl placed
    · exact ih _

theorem fieldTypes_shift (fields : List (Field Typed)) :
    fieldTypes (fields.map (Field.mapInfo (Typed.shift offset))) = (fieldTypes fields).shift offset := by
  rw [fieldTypes, fieldTypes, Row.shift_ofList, List.map_map, List.map_map]
  congr 1
  refine List.map_congr_left fun field _ => ?_
  cases field
  simp [Field.mapInfo]

theorem inferArg_shifts {infer : InferM (Expr Typed)} (function : Ty)
    (inner : Shifts offset (shift offset) infer infer) :
    Shifts offset (Prod.map (shift offset) (Ty.shift offset)) (inferArg function infer)
      (inferArg (function.shift offset) infer) :=
  inner.bind fun _ => (fresh none).bind fun _ =>
    (equate (span_shift _) rfl (by simp [Ty.shift])).bind fun _ => .pure rfl

theorem inferFunction_shifts {infer : InferM (Expr Typed)} (limit : Nat) (params : List (Pattern Span))
    (inner : Shifts offset (shift offset) infer infer) :
    Shifts offset (Prod.map (List.map (Pattern.shift offset)) (shift offset)) (inferFunction limit params infer)
      (inferFunction limit params infer) :=
  inScope ((inferParams_shifts limit params).bind fun _ => inner.bind fun _ => .pure rfl)

theorem inferLocal_shifts {infer : InferM (Expr Typed)} (limit : Nat) (seen : List String) (name : String)
    (place : Span) (params : List (Pattern Span)) (inner : Shifts offset (shift offset) infer infer) :
    Shifts offset (Binding.mapInfo (Typed.shift offset)) (inferLocal limit seen name place params infer)
      (inferLocal limit seen name place params infer) := by
  rw [inferLocal]
  split
  · exact .fail rfl rfl
  · exact (fresh none).bind fun self => (declare name (Scheme.shifted_mono self)).bind fun _ =>
      (inferFunction_shifts limit params inner).bind fun (params, body) =>
        (equate (span_shift _) rfl (functionType_shift params body)).bind fun _ => .pure rfl

theorem inferBranch_shifts {infer : InferM (Expr Typed)} (limit : Nat) (subject result : Ty) (pattern : Pattern Span)
    (inner : Shifts offset (shift offset) infer infer) :
    Shifts offset (Branch.mapInfo (Typed.shift offset)) (inferBranch limit subject result pattern infer)
      (inferBranch limit (subject.shift offset) (result.shift offset) pattern infer) :=
  inScope ((group (Pattern.infer_shifts limit pattern)).bind fun (_, names) =>
    (equate (Pattern.span_shift _) rfl (Pattern.type_shift _)).bind fun _ => (declareAll names).bind fun _ =>
      inner.bind fun _ =>
        (equate (span_shift _) rfl (type_shift _)).bind fun _ => .pure rfl)

/-- A let block is shifted if its bindings and its body are. -/
theorem block_shifts {inferBindings : InferM (List (Binding Typed))} {infer : InferM (Expr Typed)}
    (bindings : Shifts offset (List.map (Binding.mapInfo (Typed.shift offset))) inferBindings inferBindings)
    (inner : Shifts offset (shift offset) infer infer) :
    Shifts offset (Prod.map (List.map (Binding.mapInfo (Typed.shift offset))) (shift offset))
      (InferM.inScope do return (← inferBindings, ← infer)) (InferM.inScope do return (← inferBindings, ← infer)) :=
  inScope (bindings.bind fun _ => inner.bind fun _ => .pure rfl)

mutual

/-- The types of an expression are shifted. -/
theorem infer_shifts (limit : Nat) : ∀ expr : Expr Span,
    Shifts offset (shift offset) (expr.infer limit) (expr.infer limit)
  | .unit span | .float span _ | .string span _ | .char span _ => nested limit span (.pure rfl)
  | .integer span _ | .hex span _ => nested limit span ((fresh (some .number)).bind fun _ => .pure rfl)
  | .var span name => nested limit span ((lookup name span).bind fun _ => .pure rfl)
  | .tuple span first second =>
    nested limit span ((infer_shifts limit first).bind fun _ => (infer_shifts limit second).bind fun _ =>
      .pure (by simp [Ty.shift]))
  | .triple span first second third =>
    nested limit span ((infer_shifts limit first).bind fun _ => (infer_shifts limit second).bind fun _ =>
      (infer_shifts limit third).bind fun _ => .pure (by simp [Ty.shift]))
  | .list span items =>
    nested limit span ((fresh none).bind fun element => (inferItems_shifts limit element items).bind fun _ =>
      .pure (by simp [Ty.shift]))
  | .lambda span params body =>
    nested limit span ((inferFunction_shifts limit params (infer_shifts limit body)).bind fun (params, body) =>
      .pure (by simp [functionType_shift]))
  | .record span fields =>
    nested limit span ((inferFields_shifts limit fields).bind fun _ => .pure (by simp [Ty.shift, fieldTypes_shift]))
  | .accessor span field =>
    nested limit span ((fresh none).bind fun _ => (fresh none).bind fun _ =>
      .pure (by simp [Ty.shift, Row.shift_ofList]))
  | .access span subject field =>
    nested limit span ((infer_shifts limit subject).bind fun _ => (fresh none).bind fun _ => (fresh none).bind fun _ =>
      (equate (span_shift _) (by simp [Ty.shift, Row.shift_ofList]) (type_shift _)).bind fun _ => .pure (by simp))
  | .update span name updates =>
    nested limit span ((lookup name span).bind fun _ => (inferFields_shifts limit updates).bind fun _ =>
      (fresh none).bind fun _ => (equate rfl (by simp [Ty.shift, fieldTypes_shift]) rfl).bind fun _ => .pure (by simp))
  | .parenthesized span inner => nested limit span ((infer_shifts limit inner).bind fun _ => .pure (by simp))
  | .application span function args =>
    nested limit span ((infer_shifts limit function).bind fun function => by
      rw [type_shift]
      exact (inferArgs_shifts limit function.type args).bind fun (_, _) => .pure (by simp))
  | .operation span op left right =>
    nested limit span ((instantiate (Prelude.operatorScheme_shifted op)).bind fun type =>
      (inferArg_shifts type (infer_shifts limit left)).bind fun (_, type) =>
        (inferArg_shifts type (infer_shifts limit right)).bind fun (_, _) => .pure (by simp))
  | .operator span op =>
    nested limit span ((instantiate (Prelude.operatorScheme_shifted op)).bind fun _ => .pure (by simp))
  | .negate span inner =>
    nested limit span ((infer_shifts limit inner).bind fun _ => (fresh (some .number)).bind fun _ =>
      (equate (span_shift _) rfl (type_shift _)).bind fun _ => .pure (by simp))
  | .conditional span condition thenBranch elseBranch =>
    nested limit span ((infer_shifts limit condition).bind fun _ =>
      (equate (span_shift _) rfl (type_shift _)).bind fun _ =>
      (infer_shifts limit thenBranch).bind fun _ => (infer_shifts limit elseBranch).bind fun _ =>
        (equate (span_shift _) (type_shift _) (type_shift _)).bind fun _ => .pure (by simp))
  | .letIn span bindings body =>
    nested limit span ((block_shifts (inferBindings_shifts limit [] bindings) (infer_shifts limit body)).bind
      fun (_, _) => .pure (by simp))
  | .caseOf span subject branches =>
    nested limit span ((infer_shifts limit subject).bind fun subject => (fresh none).bind fun result => by
      rw [type_shift]
      exact (inferBranches_shifts limit subject.type result branches).bind fun _ => .pure (by simp))
  | .glsl span _ => nested limit span (.fail rfl rfl)

theorem inferArgs_shifts (limit : Nat) (function : Ty) : ∀ args : List (Expr Span),
    Shifts offset (Prod.map (List.map (shift offset)) (Ty.shift offset)) (inferArgs limit function args)
      (inferArgs limit (function.shift offset) args)
  | [] => .pure rfl
  | arg :: rest => (inferArg_shifts function (infer_shifts limit arg)).bind fun (_, result) =>
    (inferArgs_shifts limit result rest).bind fun (_, _) => .pure rfl

theorem inferItems_shifts (limit : Nat) (element : Ty) : ∀ items : List (Expr Span),
    Shifts offset (List.map (shift offset)) (inferItems limit element items)
      (inferItems limit (element.shift offset) items)
  | [] => .pure rfl
  | item :: rest => (infer_shifts limit item).bind fun _ => (equate (span_shift _) rfl (type_shift _)).bind fun _ =>
    (inferItems_shifts limit element rest).bind fun _ => .pure rfl

theorem inferFields_shifts (limit : Nat) : ∀ fields : List (Field Span),
    Shifts offset (List.map (Field.mapInfo (Typed.shift offset))) (inferFields limit fields) (inferFields limit fields)
  | [] => .pure rfl
  | .mk _ value :: rest => (infer_shifts limit value).bind fun _ =>
      (inferFields_shifts limit rest).bind fun _ => .pure rfl

theorem inferBranches_shifts (limit : Nat) (subject result : Ty) : ∀ branches : List (Branch Span),
    Shifts offset (List.map (Branch.mapInfo (Typed.shift offset))) (inferBranches limit subject result branches)
      (inferBranches limit (subject.shift offset) (result.shift offset) branches)
  | [] => .pure rfl
  | .mk pattern body :: rest =>
      (inferBranch_shifts limit subject result pattern (infer_shifts limit body)).bind fun _ =>
    (inferBranches_shifts limit subject result rest).bind fun _ => .pure rfl

/-- Bindings are inferred alike after the same names. -/
theorem inferBindings_shifts (limit : Nat) (seen : List String) : ∀ bindings : List (Binding Span),
    Shifts offset (List.map (Binding.mapInfo (Typed.shift offset))) (inferBindings limit seen bindings)
      (inferBindings limit seen bindings)
  | [] => .pure rfl
  | .function name params body :: rest =>
    (inferLocal_shifts limit seen name body.info params (infer_shifts limit body)).bind fun _ =>
      (inferBindings_shifts limit (seen ++ [name]) rest).bind fun _ => .pure rfl
  | .destructuring pattern body :: rest =>
    (infer_shifts limit body).bind fun _ => (group (Pattern.infer_shifts limit pattern)).bind fun (_, names) =>
      (equate (span_shift _) (Pattern.type_shift _) (type_shift _)).bind fun _ =>
        (takeNames_shifts (Pattern.span_shift _) seen names).bind fun seen =>
        (declareAll names).bind fun _ => (inferBindings_shifts limit seen rest).bind fun _ => .pure rfl

end

end Expr

end RowInference
