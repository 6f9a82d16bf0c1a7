import RowInference.Proofs.Inference.Lockstep
import RowInference.Proofs.Tree.Style

/-! # Inference in other styles

Inference does not care for the style in which a tree is written: it goes in lockstep with the inference of the recast
tree, if what the style does to single forms is sound in that sense. Only places and the nesting of nodes differ. This
is shown for all styles at once, by going through the forms of expressions, and then for two of them: the one without
parentheses and the one in core forms.
-/

namespace RowInference

open InferM (Lockstep)

variable {limit : Nat}

/-- No name is hidden. -/
abbrev NoNames : String → Prop := fun _ => False

/-- Two inferences that go in lockstep up to places and nesting, with all names in sight. -/
abbrev Abreast {α β : Type} (same : α → β → Prop) (action : InferM α) (other : InferM β) : Prop :=
  Lockstep True NoNames NoNames same action other

/-- Two patterns that are inferred in lockstep, up to places and nesting, and get the same type. -/
def Pattern.Alike (limit : Nat) (pattern other : Pattern Span) : Prop :=
  Abreast (fun typed typed' => typed.type = typed'.type) (pattern.infer limit) (other.infer limit)

/-- Two expressions that are inferred in lockstep, up to places and nesting, and get the same type. -/
def Expr.Alike (limit : Nat) (expr other : Expr Span) : Prop :=
  Abreast (fun typed typed' => typed.type = typed'.type) (expr.infer limit) (other.infer limit)

/-! ## Steps at different places -/

namespace Abreast

variable {α β γ δ : Type} {same : α → β → Prop} {action : InferM α} {other : InferM β} {span span' : Span}

theorem bind {sameNext : γ → δ → Prop} {next : α → InferM γ} {next' : β → InferM δ}
    (first : Abreast same action other)
    (rest : ∀ value value', same value value' → Abreast sameNext (next value) (next' value')) :
    Abreast sameNext (action >>= next) (other >>= next') := Lockstep.bind first rest

/-- Both sides go inside a node. -/
theorem node (abreast : Abreast same action other) :
    Abreast same (InferM.nested limit span action) (InferM.nested limit span' other) :=
  Lockstep.nested limit (absurd trivial) abreast

/-- Only the first side goes inside a node. -/
theorem node_left (abreast : Abreast same action other) : Abreast same (InferM.nested limit span action) other :=
  Lockstep.nested_left trivial limit span abreast

theorem node_right (abreast : Abreast same action other) : Abreast same action (InferM.nested limit span other) :=
  Lockstep.nested_right trivial limit span abreast

theorem fail (fault : Fault) : Abreast same (InferM.fail fault span) (InferM.fail fault span') :=
  Lockstep.fail fault (absurd trivial)

theorem lookup (name : String) : Abreast (· = ·) (InferM.lookup name span) (InferM.lookup name span') :=
  Lockstep.lookup id (absurd trivial)

theorem bindName (name : String) {type type' : Ty} (sameType : type = type') :
    Abreast (· = ·) (InferM.bindName name type span) (InferM.bindName name type' span') :=
  Lockstep.bindName name sameType (absurd trivial)

theorem equate {expected expected' actual actual' : Ty} (sameExpected : expected = expected')
    (sameActual : actual = actual') :
    Abreast (· = ·) (InferM.equate expected actual span) (InferM.equate expected' actual' span') :=
  Lockstep.equate sameExpected sameActual (absurd trivial)

end Abreast

/-! ## Patterns -/

namespace Pattern

theorem Alike.refl (limit : Nat) (pattern : Pattern Span) : Alike limit pattern pattern :=
  ((pattern.script limit).lockstep (script_avoids limit pattern)).imp fun _ _ same => same ▸ rfl

/-- Patterns that are alike one by one are inferred in lockstep. -/
theorem inferAll_lockstep {patterns others : List (Pattern Span)} (alike : List.Forall₂ (Alike limit) patterns others) :
    Abreast (fun typed typed' => typed.map type = typed'.map type) (inferAll limit patterns)
      (inferAll limit others) := by
  induction alike with
  | nil => exact .pure rfl
  | cons here _ ih =>
    apply Abreast.bind here
    intro typed typed' same
    apply ih.bind
    intro rest rest' sameRest
    exact .pure (by simp [same, sameRest])

mutual

/-- A pattern without its parentheses is inferred alike. -/
theorem alike_unparenthesized (limit : Nat) : ∀ pattern : Pattern Span, Alike limit pattern pattern.unparenthesized
  | .unit span => .refl limit (.unit span)
  | .wildcard span => .refl limit (.wildcard span)
  | .var span name => .refl limit (.var span name)
  | .integer span value => .refl limit (.integer span value)
  | .hex span value => .refl limit (.hex span value)
  | .float span value => .refl limit (.float span value)
  | .string span value => .refl limit (.string span value)
  | .char span value => .refl limit (.char span value)
  | .record span fields => .refl limit (.record span fields)
  | .tuple _ first second => by
    apply Abreast.node
    apply Abreast.bind (alike_unparenthesized limit first)
    intro typed typed' sameFirst
    apply Abreast.bind (alike_unparenthesized limit second)
    intro other other' sameSecond
    apply Lockstep.pure
    change Ty.tuple typed.type other.type = Ty.tuple typed'.type other'.type
    rw [sameFirst, sameSecond]
  | .triple _ first second third => by
    apply Abreast.node
    apply Abreast.bind (alike_unparenthesized limit first)
    intro typed typed' sameFirst
    apply Abreast.bind (alike_unparenthesized limit second)
    intro other other' sameSecond
    apply Abreast.bind (alike_unparenthesized limit third)
    intro last last' sameThird
    apply Lockstep.pure
    change Ty.triple typed.type other.type last.type = Ty.triple typed'.type other'.type last'.type
    rw [sameFirst, sameSecond, sameThird]
  | .list _ items => by
    apply Abreast.node
    apply Abreast.bind (.fresh none)
    rintro element _ rfl
    apply Abreast.bind (inferItems_unparenthesized limit element items)
    intro _ _ _
    exact .pure rfl
  | .cons _ head tail => by
    apply Abreast.node
    apply Abreast.bind (alike_unparenthesized limit head)
    intro typed typed' sameHead
    apply Abreast.bind (alike_unparenthesized limit tail)
    intro other other' sameTail
    have sameList : Ty.list typed.type = Ty.list typed'.type := by rw [sameHead]
    apply Abreast.bind (.equate sameList sameTail)
    intro _ _ _
    exact .pure sameList
  | .aliased _ inner name => by
    apply Abreast.node
    apply Abreast.bind (alike_unparenthesized limit inner)
    intro typed typed' same
    apply Abreast.bind (.bindName name same)
    intro _ _ _
    exact .pure same
  | .parenthesized _ inner => by
    apply Abreast.node_left
    apply Lockstep.andThen_pure_left (alike_unparenthesized limit inner)
    intro typed typed' same
    exact same

theorem inferItems_unparenthesized (limit : Nat) (element : Ty) : ∀ items : List (Pattern Span),
    Abreast (fun _ _ => True) (inferItems limit element items) (inferItems limit element (unparenthesizedItems items))
  | [] => .pure trivial
  | item :: rest => by
    apply Abreast.bind (alike_unparenthesized limit item)
    intro typed typed' same
    apply Abreast.bind (.equate rfl same)
    intro _ _ _
    apply Abreast.bind (inferItems_unparenthesized limit element rest)
    intro _ _ _
    exact .pure trivial

end

end Pattern

/-! ## Parts of expressions -/

namespace Expr

/-- Infer the parameters and the body of a function in the current scope. -/
def inferDefinition (limit : Nat) (params : List (Pattern Span)) (infer : InferM (Expr Typed)) :
    InferM (List (Pattern Typed) × Expr Typed) := do
  let params ← inferParams limit params
  let body ← infer
  return (params, body)

/-- The name and the type of a field. -/
def fieldEntry : Field Typed → String × Ty
  | .mk name value => (name, value.type)

theorem fieldTypes_congr {fields fields' : List (Field Typed)} (same : fields.map fieldEntry = fields'.map fieldEntry) :
    fieldTypes fields = fieldTypes fields' := congrArg Row.ofList same

/-- Parameters that are alike bring the same names into scope. -/
theorem inferParams_lockstep {params params' : List (Pattern Span)}
    (alike : List.Forall₂ (Pattern.Alike limit) params params') :
    Abreast (fun typed typed' => typed.map Pattern.type = typed'.map Pattern.type)
      (inferParams limit params) (inferParams limit params') := by
  apply Abreast.bind (Pattern.inferAll_lockstep alike).group
  rintro ⟨typed, names⟩ ⟨typed', names'⟩ ⟨sameTypes, sameNames⟩
  apply Abreast.bind (.declareAll sameNames)
  intro _ _ _
  exact .pure sameTypes

theorem takeNames_lockstep (span span' : Span) (seen : List String) (names : List (String × Ty)) :
    Abreast (· = ·) (takeNames span seen names) (takeNames span' seen names) := by
  induction names generalizing seen with
  | nil => exact .pure rfl
  | cons entry rest ih =>
    rw [takeNames, takeNames]
    split
    · exact .fail _
    · exact ih _

section Parts

variable {infer infer' : InferM (Expr Typed)}
  (alike : Abreast (fun typed typed' => typed.type = typed'.type) infer infer')

include alike

/-- A definition is inferred in lockstep with one whose parameters and body are alike. -/
theorem inferDefinition_lockstep {params params' : List (Pattern Span)}
    (alikeParams : List.Forall₂ (Pattern.Alike limit) params params') :
    Abreast (fun found found' => functionType found.1 found.2 = functionType found'.1 found'.2)
      (inferDefinition limit params infer) (inferDefinition limit params' infer') := by
  apply (inferParams_lockstep alikeParams).bind
  intro params params' sameParams
  apply alike.bind
  intro body body' sameBody
  apply Lockstep.pure
  rw [functionType, functionType, sameParams, sameBody]

/-- An argument that is alike leads to the same type of the result. -/
theorem inferArg_lockstep {function function' : Ty} (sameFunction : function = function') :
    Abreast (fun found found' => found.2 = found'.2) (inferArg function infer) (inferArg function' infer') := by
  apply alike.bind
  intro arg arg' sameArg
  apply Abreast.bind (.fresh none)
  rintro result _ rfl
  apply Abreast.bind (.equate sameFunction (by rw [sameArg]))
  intro _ _ _
  exact .pure rfl

/-- A branch is inferred in lockstep with one that is alike in both parts. -/
theorem inferBranch_lockstep {subject subject' : Ty} (sameSubject : subject = subject') (result : Ty)
    {pattern pattern' : Pattern Span} (alikePattern : pattern.Alike limit pattern') :
    Abreast (fun _ _ => True) (inferBranch limit subject result pattern infer)
      (inferBranch limit subject' result pattern' infer') := by
  apply Lockstep.inScope
  apply Abreast.bind (.group alikePattern)
  rintro ⟨typed, names⟩ ⟨typed', names'⟩ ⟨sameType, sameNames⟩
  apply Abreast.bind (.equate sameSubject sameType)
  intro _ _ _
  apply Abreast.bind (.declareAll sameNames)
  intro _ _ _
  apply alike.bind
  intro body body' sameBody
  apply Abreast.bind (.equate rfl sameBody)
  intro _ _ _
  exact .pure trivial

theorem inferLet_lockstep {bindings bindings' : InferM (List (Binding Typed))}
    (alikeBindings : Abreast (fun _ _ => True) bindings bindings') :
    Abreast (fun found found' => found.2.type = found'.2.type)
      (bindings >>= fun bindings => infer >>= fun body => pure (bindings, body))
      (bindings' >>= fun bindings => infer' >>= fun body => pure (bindings, body)) := by
  apply alikeBindings.bind
  intro _ _ _
  apply alike.bind
  intro body body' same
  exact .pure same

end Parts

/-- Two definitions of one name in a let block. Nothing outside of them sees their scopes. -/
theorem inferLocal_lockstep {params params' : List (Pattern Span)} {infer infer' : InferM (Expr Typed)}
    (definition : Lockstep True NoNames (fun _ => True)
      (fun found found' => functionType found.1 found.2 = functionType found'.1 found'.2)
      (inferDefinition limit params infer) (inferDefinition limit params' infer'))
    (seen : List String) (name : String) (place place' : Span) :
    Abreast (fun _ _ => True) (inferLocal limit seen name place params infer)
      (inferLocal limit seen name place' params' infer') := by
  rw [inferLocal, inferLocal]
  split
  · exact .fail _
  · apply Abreast.bind (.fresh none)
    rintro self _ rfl
    apply Abreast.bind (.declare name _)
    intro _ _ _
    apply Abreast.bind (.inScope definition)
    intro found found' same
    apply Abreast.bind (.equate rfl same)
    intro _ _ _
    exact .pure trivial

end Expr

/-! ## Styles -/

/-- Each form that a style writes in its own way is inferred like the form as it was, if its parts are. -/
structure Style.Sound (limit : Nat) (style : Style Span) : Prop where
  pattern (pattern : Pattern Span) : pattern.Alike limit (style.pattern pattern)
  parenthesized (span : Span) {inner inner' : Expr Span} (alike : inner.Alike limit inner') :
    (Expr.parenthesized span inner).Alike limit (style.parenthesized span inner')
  application (span : Span) {function function' : Expr Span} (alike : function.Alike limit function')
    {args args' : List (Expr Span)} (alikeArgs : List.Forall₂ (Expr.Alike limit) args args') :
    (Expr.application span function args).Alike limit (style.application span function' args')
  operation (span : Span) (op : Operator) {left left' right right' : Expr Span} (alikeLeft : left.Alike limit left')
    (alikeRight : right.Alike limit right') :
    (Expr.operation span op left right).Alike limit (style.operation span op left' right')
  definition {params params' : List (Pattern Span)} (alikeParams : List.Forall₂ (Pattern.Alike limit) params params')
    {body body' : Expr Span} (alikeBody : body.Alike limit body') :
    Lockstep True NoNames (fun _ => True)
      (fun found found' => functionType found.1 found.2 = functionType found'.1 found'.2)
      (Expr.inferDefinition limit params (body.infer limit))
      (Expr.inferDefinition limit (style.definition params' body').1 ((style.definition params' body').2.infer limit))

theorem Style.Sound.patterns {style : Style Span} (sound : style.Sound limit) (patterns : List (Pattern Span)) :
    List.Forall₂ (Pattern.Alike limit) patterns (patterns.map style.pattern) := by
  induction patterns with
  | nil => exact .nil
  | cons pattern rest ih => exact .cons (sound.pattern pattern) ih

namespace Expr

variable {style : Style Span}

mutual

/-- An expression in a sound style is inferred like the expression. -/
theorem alike_recast (sound : style.Sound limit) : ∀ expr : Expr Span, Alike limit expr (expr.recast style)
  | .unit _ | .float .. | .string .. | .char .. => Abreast.node (.pure rfl)
  | .integer .. | .hex .. => by
    apply Abreast.node
    apply Abreast.bind (.fresh _)
    rintro type _ rfl
    exact .pure rfl
  | .var _ name => by
    apply Abreast.node
    apply Abreast.bind (.lookup name)
    rintro type _ rfl
    exact .pure rfl
  | .tuple _ first second => by
    apply Abreast.node
    apply Abreast.bind (alike_recast sound first)
    intro typed typed' sameFirst
    apply Abreast.bind (alike_recast sound second)
    intro other other' sameSecond
    apply Lockstep.pure
    change Ty.tuple typed.type other.type = Ty.tuple typed'.type other'.type
    rw [sameFirst, sameSecond]
  | .triple _ first second third => by
    apply Abreast.node
    apply Abreast.bind (alike_recast sound first)
    intro typed typed' sameFirst
    apply Abreast.bind (alike_recast sound second)
    intro other other' sameSecond
    apply Abreast.bind (alike_recast sound third)
    intro last last' sameThird
    apply Lockstep.pure
    change Ty.triple typed.type other.type last.type = Ty.triple typed'.type other'.type last'.type
    rw [sameFirst, sameSecond, sameThird]
  | .list _ items => by
    apply Abreast.node
    apply Abreast.bind (.fresh none)
    rintro element _ rfl
    apply Abreast.bind (inferItems_recast sound element items)
    intro _ _ _
    exact .pure rfl
  | .lambda _ params body => by
    apply Abreast.node
    apply Abreast.bind (.inScope (inferDefinition_lockstep (alike_recast sound body) (sound.patterns params)))
    intro found found' same
    exact .pure same
  | .record _ fields => by
    apply Abreast.node
    apply Abreast.bind (inferFields_recast sound fields)
    intro typed typed' same
    apply Lockstep.pure
    change Ty.record (fieldTypes typed) = Ty.record (fieldTypes typed')
    rw [fieldTypes_congr same]
  | .accessor _ field => by
    apply Abreast.node
    apply Abreast.bind (.fresh none)
    rintro base _ rfl
    apply Abreast.bind (.fresh none)
    rintro type _ rfl
    exact .pure rfl
  | .access _ subject field => by
    apply Abreast.node
    apply Abreast.bind (alike_recast sound subject)
    intro typed typed' same
    apply Abreast.bind (.fresh none)
    rintro base _ rfl
    apply Abreast.bind (.fresh none)
    rintro type _ rfl
    apply Abreast.bind (.equate rfl same)
    intro _ _ _
    exact .pure rfl
  | .update _ name updates => by
    apply Abreast.node
    apply Abreast.bind (.lookup name)
    rintro record _ rfl
    apply Abreast.bind (inferFields_recast sound updates)
    intro typed typed' same
    apply Abreast.bind (.fresh none)
    rintro base _ rfl
    apply Abreast.bind (.equate (by rw [fieldTypes_congr same]) rfl)
    intro _ _ _
    exact .pure rfl
  | .parenthesized span inner => sound.parenthesized span (alike_recast sound inner)
  | .application span function args =>
    sound.application span (alike_recast sound function) (alike_recastItems sound args)
  | .operation span op left right => sound.operation span op (alike_recast sound left) (alike_recast sound right)
  | .operator .. => by
    apply Abreast.node
    apply Abreast.bind (.instantiate _)
    rintro type _ rfl
    exact .pure rfl
  | .negate _ inner => by
    apply Abreast.node
    apply Abreast.bind (alike_recast sound inner)
    intro typed typed' same
    apply Abreast.bind (.fresh _)
    rintro number _ rfl
    apply Abreast.bind (.equate rfl same)
    intro _ _ _
    exact .pure rfl
  | .conditional _ condition thenBranch elseBranch => by
    apply Abreast.node
    apply Abreast.bind (alike_recast sound condition)
    intro typed typed' sameCondition
    apply Abreast.bind (.equate rfl sameCondition)
    intro _ _ _
    apply Abreast.bind (alike_recast sound thenBranch)
    intro taken taken' sameThen
    apply Abreast.bind (alike_recast sound elseBranch)
    intro other other' sameElse
    apply Abreast.bind (.equate sameThen sameElse)
    intro _ _ _
    exact .pure sameThen
  | .letIn _ bindings body => by
    apply Abreast.node
    apply Abreast.bind (.inScope (inferLet_lockstep (alike_recast sound body) (inferBindings_recast sound [] bindings)))
    intro found found' same
    exact .pure same
  | .caseOf _ subject branches => by
    apply Abreast.node
    apply Abreast.bind (alike_recast sound subject)
    intro typed typed' same
    apply Abreast.bind (.fresh none)
    rintro result _ rfl
    apply Abreast.bind (inferBranches_recast sound same result branches)
    intro _ _ _
    exact .pure rfl
  | .glsl .. => Abreast.node (.fail _)

theorem alike_recastItems (sound : style.Sound limit) : ∀ items : List (Expr Span),
    List.Forall₂ (Alike limit) items (recastItems style items)
  | [] => .nil
  | item :: rest => .cons (alike_recast sound item) (alike_recastItems sound rest)

theorem inferItems_recast (sound : style.Sound limit) (element : Ty) : ∀ items : List (Expr Span),
    Abreast (fun _ _ => True) (inferItems limit element items) (inferItems limit element (recastItems style items))
  | [] => .pure trivial
  | item :: rest => by
    apply Abreast.bind (alike_recast sound item)
    intro typed typed' same
    apply Abreast.bind (.equate rfl same)
    intro _ _ _
    apply Abreast.bind (inferItems_recast sound element rest)
    intro _ _ _
    exact .pure trivial

theorem inferFields_recast (sound : style.Sound limit) : ∀ fields : List (Field Span),
    Abreast (fun typed typed' => typed.map fieldEntry = typed'.map fieldEntry) (inferFields limit fields)
      (inferFields limit (recastFields style fields))
  | [] => .pure rfl
  | .mk name value :: rest => by
    apply Abreast.bind (alike_recast sound value)
    intro typed typed' same
    apply Abreast.bind (inferFields_recast sound rest)
    intro others others' sameRest
    apply Lockstep.pure
    change (name, typed.type) :: others.map fieldEntry = (name, typed'.type) :: others'.map fieldEntry
    rw [same, sameRest]

theorem inferBranches_recast (sound : style.Sound limit) {subject subject' : Ty} (sameSubject : subject = subject')
    (result : Ty) : ∀ branches : List (Branch Span),
    Abreast (fun _ _ => True) (inferBranches limit subject result branches)
      (inferBranches limit subject' result (recastBranches style branches))
  | [] => .pure trivial
  | .mk pattern body :: rest => by
    apply Abreast.bind (inferBranch_lockstep (alike_recast sound body) sameSubject result (sound.pattern pattern))
    intro _ _ _
    apply Abreast.bind (inferBranches_recast sound sameSubject result rest)
    intro _ _ _
    exact .pure trivial

/-- Bindings are inferred in lockstep with the recast ones, after the same names. -/
theorem inferBindings_recast (sound : style.Sound limit) (seen : List String) : ∀ bindings : List (Binding Span),
    Abreast (fun _ _ => True) (inferBindings limit seen bindings)
      (inferBindings limit seen (recastBindings style bindings))
  | [] => .pure trivial
  | .function name params body :: rest => by
    have definition := sound.definition (sound.patterns params) (alike_recast sound body)
    apply Abreast.bind (inferLocal_lockstep definition seen name _ _)
    intro _ _ _
    apply Abreast.bind (inferBindings_recast sound (seen ++ [name]) rest)
    intro _ _ _
    exact .pure trivial
  | .destructuring pattern body :: rest => by
    apply Abreast.bind (alike_recast sound body)
    intro typed typed' sameBody
    apply Abreast.bind (.group (sound.pattern pattern))
    rintro ⟨matched, names⟩ ⟨matched', _⟩ ⟨sameType, rfl⟩
    apply Abreast.bind (.equate sameType sameBody)
    intro _ _ _
    apply Abreast.bind (takeNames_lockstep _ _ seen names)
    rintro seen _ rfl
    apply Abreast.bind (.declareAll rfl)
    intro _ _ _
    apply Abreast.bind (inferBindings_recast sound seen rest)
    intro _ _ _
    exact .pure trivial

end

end Expr

/-! ## Without parentheses -/

/-- Arguments that are alike one by one lead to the same type of the result. -/
theorem Expr.inferArgs_lockstep {args args' : List (Expr Span)} (alike : List.Forall₂ (Alike limit) args args')
    {function function' : Ty} (sameFunction : function = function') :
    Abreast (fun found found' => found.2 = found'.2) (inferArgs limit function args)
      (inferArgs limit function' args') := by
  induction alike generalizing function function' with
  | nil => exact .pure sameFunction
  | cons here _ ih =>
    apply (inferArg_lockstep here sameFunction).bind
    intro applied applied' same
    apply (ih same).bind
    intro others others' sameResult
    exact .pure sameResult

/-- Parentheses have the type of their content. -/
theorem Style.bare_sound (limit : Nat) : Style.bare.Sound limit where
  pattern := Pattern.alike_unparenthesized limit
  parenthesized _ _ _ alike := by
    apply Abreast.node_left
    apply Lockstep.andThen_pure_left alike
    intro typed typed' same
    exact same
  application _ _ _ alike _ _ alikeArgs := by
    apply Abreast.node
    apply Abreast.bind alike
    intro function function' sameFunction
    apply (Expr.inferArgs_lockstep alikeArgs sameFunction).bind
    intro applied applied' same
    exact .pure same
  operation _ _ _ _ _ _ alikeLeft alikeRight := by
    apply Abreast.node
    apply Abreast.bind (.instantiate _)
    rintro function _ rfl
    apply (Expr.inferArg_lockstep alikeLeft rfl).bind
    intro left left' sameLeft
    apply (Expr.inferArg_lockstep alikeRight sameLeft).bind
    intro right right' sameRight
    exact .pure sameRight
  definition alikeParams _ _ alikeBody :=
    (Expr.inferDefinition_lockstep alikeBody alikeParams).weaken fun _ _ => trivial

/-! ## Core forms -/

namespace Expr

section Application

variable {α β : Type} {action : InferM α} {typeOf : α → Ty} {function : Expr Span}

/-- One more argument: what has been inferred of a function, and the function itself applied to the argument. -/
theorem inferArg_alike_application (span : Span)
    (alike : Abreast (fun found typed => typeOf found = typed.type) action (function.infer limit))
    {arg arg' : Expr Span} (alikeArg : arg.Alike limit arg') (result : α → Expr Typed × Ty → β) (resultType : β → Ty)
    (types : ∀ found applied, resultType (result found applied) = applied.2) :
    Abreast (fun found typed => resultType found = typed.type)
      (action >>= fun found => inferArg (typeOf found) (arg.infer limit) >>= fun applied => pure (result found applied))
      ((application span function [arg']).infer limit) := by
  apply Abreast.node_right
  apply alike.bind
  intro found typed same
  have one : Abreast (fun applied applied' => applied.2 = applied'.2) (inferArg (typeOf found) (arg.infer limit))
      (inferArgs limit typed.type [arg']) :=
    (inferArg_lockstep alikeArg same).andThen_pure_right fun _ _ same => same
  apply one.bind
  intro applied applied' sameResult
  apply Lockstep.pure
  rw [types]
  exact sameResult

/-- All arguments at once, or one after the other. -/
theorem inferArgs_alike_applyEach (span : Span)
    (alike : Abreast (fun found typed => typeOf found = typed.type) action (function.infer limit))
    {args args' : List (Expr Span)} (alikeArgs : List.Forall₂ (Alike limit) args args')
    (result : α → List (Expr Typed) × Ty → β) (resultType : β → Ty)
    (types : ∀ found applied, resultType (result found applied) = applied.2) :
    Abreast (fun found typed => resultType found = typed.type)
      (action >>= fun found => inferArgs limit (typeOf found) args >>= fun applied => pure (result found applied))
      ((applyEach span function args').infer limit) := by
  induction alikeArgs generalizing α action typeOf function with
  | nil =>
    simp only [inferArgs, pure_bind]
    exact .andThen_pure_left alike fun found _ same => (types found _).trans same
  | cons here _ ih =>
    have one := inferArg_alike_application span alike here Prod.mk (fun found => found.2.2) fun _ _ => rfl
    have all := ih one (fun found applied => result found.1 (found.2.1 :: applied.1, applied.2)) fun _ _ => types _ _
    simp only [bind_assoc, pure_bind] at all
    simp only [inferArgs, bind_assoc, pure_bind]
    exact all

end Application

/-- Parameters of a definition, or of a lambda in their place. -/
theorem inferDefinition_alike_lambda {params params' : List (Pattern Span)}
    (alikeParams : List.Forall₂ (Pattern.Alike limit) params params') {body body' : Expr Span}
    (alikeBody : body.Alike limit body') (span : Span) :
    Lockstep True NoNames (fun _ => True)
      (fun found found' => functionType found.1 found.2 = functionType found'.1 found'.2)
      (inferDefinition limit params (body.infer limit))
      (inferDefinition limit [] ((lambda span params' body').infer limit)) := by
  have definition := (inferDefinition_lockstep alikeBody alikeParams).inScope_right
  have inLambda : Lockstep True NoNames (fun _ => True) (fun found typed => functionType found.1 found.2 = typed.type)
      (inferDefinition limit params (body.infer limit)) ((lambda span params' body').infer limit) :=
    Lockstep.nested_right trivial limit span (definition.andThen_pure_right fun _ _ same => same)
  have behind : Lockstep True NoNames (fun _ => True)
      (fun found found' => functionType found.1 found.2 = functionType found'.1 found'.2)
      (inferDefinition limit params (body.infer limit))
      ((lambda span params' body').infer limit >>= fun typed => pure ([], typed)) :=
    .andThen_pure_right inLambda fun _ _ same => same
  -- Both begin with a group of patterns of their own, so it does not matter which names have been bound before.
  intro state state' beside
  exact (behind { state with bound := [] } { state' with bound := [] } { beside with bound := rfl }).since rfl rfl

end Expr

/-- The core forms are inferred like the forms they stand for. -/
theorem Style.core_sound (limit : Nat) : Style.core.Sound limit where
  pattern := Pattern.Alike.refl limit
  parenthesized _ _ _ alike := by
    apply Abreast.node
    apply Abreast.bind alike
    intro typed typed' same
    exact .pure same
  application span _ _ alike _ _ alikeArgs := by
    cases alikeArgs with
    | nil =>
      apply Abreast.node
      apply Abreast.bind alike
      intro typed typed' same
      exact .pure same
    | cons here rest =>
      apply Abreast.node_left
      exact Expr.inferArgs_alike_applyEach span alike (.cons here rest) _ Expr.type fun _ _ => rfl
  operation span op _ _ _ _ alikeLeft alikeRight := by
    have function : Abreast (fun type typed => type = typed.type) (InferM.instantiate (Prelude.operatorScheme op))
        ((Expr.operator span op).infer limit) :=
      Abreast.node_right (.andThen_pure_right (.instantiate _) fun _ _ same => same)
    have once := Expr.inferArg_alike_application span function alikeLeft (fun _ left => left) Prod.snd fun _ _ => rfl
    have twice := Expr.inferArg_alike_application span once alikeRight
      (fun left right => Expr.operation (.mono span right.2) op left.1 right.1) Expr.type fun _ _ => rfl
    simp only [bind_assoc, pure_bind] at twice
    exact Abreast.node_left twice
  definition alikeParams _ _ alikeBody := by
    cases alikeParams with
    | nil => exact (Expr.inferDefinition_lockstep alikeBody .nil).weaken fun _ _ => trivial
    | cons here rest => exact Expr.inferDefinition_alike_lambda (.cons here rest) alikeBody _

/-! ## Declarations -/

namespace Declaration

theorem inferBody_eq (limit : Nat) (self : Ty) (declaration : Declaration Span) :
    inferBody limit self declaration = InferM.inScope do
      InferM.declare declaration.name (Scheme.mono self)
      let found ← Expr.inferDefinition limit declaration.params (declaration.body.infer limit)
      InferM.equate self (functionType found.1 found.2) declaration.info
      return found := by
  simp only [inferBody, Expr.inferDefinition, bind_assoc, pure_bind]

/-- The body of a declaration in a sound style is inferred like that of the declaration. The names of parameters may be
in scope when the type of the declaration is equated, or not any more. -/
theorem inferBody_recast {style : Style Span} (sound : style.Sound limit) (self : Ty) (declaration : Declaration Span) :
    Abreast (fun _ _ => True) (inferBody limit self declaration)
      (inferBody limit self (declaration.recast style)) := by
  have definition := sound.definition (sound.patterns declaration.params) (Expr.alike_recast sound declaration.body)
  rw [inferBody_eq, inferBody_eq]
  apply Lockstep.inScope
  apply Lockstep.bind (.declare declaration.name _)
  intro _ _ _
  apply Lockstep.bind definition
  intro found found' same
  apply Lockstep.bind (.equate rfl same (absurd trivial))
  intro _ _ _
  exact .pure trivial

end Declaration

end RowInference
