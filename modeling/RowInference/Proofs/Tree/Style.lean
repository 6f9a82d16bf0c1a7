import RowInference.Proofs.Tree.Height

/-! # Styles of writing

One program can be written in several styles: with parentheses or without, with operators between their operands or as
functions, with parameters on the left of a definition or in a lambda. A style says how to write the forms for which
there is a choice, given their parts in the same style. All other forms are what they are.
-/

namespace RowInference

variable {ι : Type}

/-- How to write the forms for which there is a choice; where nothing is said, as they are. -/
structure Style (ι : Type) where
  pattern : Pattern ι → Pattern ι := id
  parenthesized : ι → Expr ι → Expr ι := .parenthesized
  application : ι → Expr ι → List (Expr ι) → Expr ι := .application
  operation : ι → Operator → Expr ι → Expr ι → Expr ι := .operation
  /-- The parameters and the body of a function that has a name. -/
  definition : List (Pattern ι) → Expr ι → List (Pattern ι) × Expr ι := Prod.mk

namespace Expr

mutual

/-- Write an expression in a style, at every depth. -/
def recast (style : Style ι) : Expr ι → Expr ι
  | .tuple info first second => .tuple info (first.recast style) (second.recast style)
  | .triple info first second third => .triple info (first.recast style) (second.recast style) (third.recast style)
  | .list info items => .list info (recastItems style items)
  | .lambda info params body => .lambda info (params.map style.pattern) (body.recast style)
  | .record info fields => .record info (recastFields style fields)
  | .access info subject field => .access info (subject.recast style) field
  | .update info name updates => .update info name (recastFields style updates)
  | .parenthesized info inner => style.parenthesized info (inner.recast style)
  | .application info function args => style.application info (function.recast style) (recastItems style args)
  | .operation info op left right => style.operation info op (left.recast style) (right.recast style)
  | .negate info inner => .negate info (inner.recast style)
  | .conditional info condition thenBranch elseBranch =>
    .conditional info (condition.recast style) (thenBranch.recast style) (elseBranch.recast style)
  | .letIn info bindings body => .letIn info (recastBindings style bindings) (body.recast style)
  | .caseOf info subject branches => .caseOf info (subject.recast style) (recastBranches style branches)
  | .unit info => .unit info
  | .integer info value => .integer info value
  | .hex info value => .hex info value
  | .float info value => .float info value
  | .string info value => .string info value
  | .char info value => .char info value
  | .var info name => .var info name
  | .accessor info field => .accessor info field
  | .operator info op => .operator info op
  | .glsl info source => .glsl info source

def recastItems (style : Style ι) : List (Expr ι) → List (Expr ι)
  | [] => []
  | item :: rest => item.recast style :: recastItems style rest

def recastFields (style : Style ι) : List (Field ι) → List (Field ι)
  | [] => []
  | .mk name value :: rest => .mk name (value.recast style) :: recastFields style rest

def recastBranches (style : Style ι) : List (Branch ι) → List (Branch ι)
  | [] => []
  | .mk pattern body :: rest => .mk (style.pattern pattern) (body.recast style) :: recastBranches style rest

def recastBindings (style : Style ι) : List (Binding ι) → List (Binding ι)
  | [] => []
  | .function name params body :: rest =>
    let (params, body) := style.definition (params.map style.pattern) (body.recast style)
    .function name params body :: recastBindings style rest
  | .destructuring pattern body :: rest =>
    .destructuring (style.pattern pattern) (body.recast style) :: recastBindings style rest

end

end Expr

def Declaration.recast (style : Style ι) (declaration : Declaration ι) : Declaration ι :=
  let (params, body) := style.definition (declaration.params.map style.pattern) (declaration.body.recast style)
  { declaration with params, body }

/-! ## Without parentheses -/

namespace Pattern

mutual

/-- The pattern with every node in parentheses replaced by its content. -/
def unparenthesized : Pattern ι → Pattern ι
  | .tuple info first second => .tuple info first.unparenthesized second.unparenthesized
  | .triple info first second third =>
    .triple info first.unparenthesized second.unparenthesized third.unparenthesized
  | .list info items => .list info (unparenthesizedItems items)
  | .cons info head tail => .cons info head.unparenthesized tail.unparenthesized
  | .aliased info inner name => .aliased info inner.unparenthesized name
  | .parenthesized _ inner => inner.unparenthesized
  | .unit info => .unit info
  | .wildcard info => .wildcard info
  | .var info name => .var info name
  | .integer info value => .integer info value
  | .hex info value => .hex info value
  | .float info value => .float info value
  | .string info value => .string info value
  | .char info value => .char info value
  | .record info fields => .record info fields

def unparenthesizedItems : List (Pattern ι) → List (Pattern ι)
  | [] => []
  | item :: rest => item.unparenthesized :: unparenthesizedItems rest

end

end Pattern

/-- A content stands for itself, without parentheses around it. -/
def Style.bare : Style ι where
  pattern := Pattern.unparenthesized
  parenthesized _ inner := inner

/-- The expression with every node in parentheses, also in patterns, replaced by its content. -/
def Expr.unparenthesized (expr : Expr ι) : Expr ι := expr.recast .bare

/-! ## Core forms -/

/-- Apply a function to one argument after the other. -/
def Expr.applyEach (info : ι) (function : Expr ι) (args : List (Expr ι)) : Expr ι :=
  args.foldl (fun function arg => .application info function [arg]) function

/-- Functions with one argument at a time, operators as functions, and parameters in lambdas. -/
def Style.core : Style ι where
  application info function
    | [] => .application info function []
    | args => .applyEach info function args
  operation info op left right := .applyEach info (.operator info op) [left, right]
  definition
    | [], body => ([], body)
    | params, body => ([], .lambda body.info params body)

def Expr.core (expr : Expr ι) : Expr ι := expr.recast .core

/-- The declaration in core forms: without parameters of its own. -/
def Declaration.core (declaration : Declaration ι) : Declaration ι := declaration.recast .core

/-! ## Heights

Without parentheses no tree is higher than before.
-/

namespace Pattern

theorem unparenthesizedItems_eq_map (items : List (Pattern ι)) :
    unparenthesizedItems items = items.map unparenthesized := by
  induction items with
  | nil => rfl
  | cons item rest ih => simp [unparenthesizedItems, ih]

mutual

/-- Without parentheses a pattern is not higher. -/
theorem height_unparenthesized_le : ∀ pattern : Pattern ι, pattern.unparenthesized.height ≤ pattern.height
  | .tuple _ first second | .cons _ first second => by
    have := height_unparenthesized_le first
    have := height_unparenthesized_le second
    simp only [unparenthesized, height]
    omega
  | .triple _ first second third => by
    have := height_unparenthesized_le first
    have := height_unparenthesized_le second
    have := height_unparenthesized_le third
    simp only [unparenthesized, height]
    omega
  | .list _ items => Nat.succ_le_succ (heightOf_unparenthesizedItems_le items)
  | .aliased _ inner _ => Nat.succ_le_succ (height_unparenthesized_le inner)
  | .parenthesized _ inner => Nat.le_succ_of_le (height_unparenthesized_le inner)
  | .unit _ | .wildcard _ | .var .. | .integer .. | .hex .. | .float .. | .string .. | .char .. | .record .. =>
    Nat.le_refl _

theorem heightOf_unparenthesizedItems_le : ∀ items : List (Pattern ι),
    heightOf (unparenthesizedItems items) ≤ heightOf items
  | [] => Nat.le_refl _
  | item :: rest => by
    have := height_unparenthesized_le item
    have := heightOf_unparenthesizedItems_le rest
    simp only [unparenthesizedItems, heightOf]
    omega

end

theorem heightOf_map_unparenthesized_le (params : List (Pattern ι)) :
    heightOf (params.map unparenthesized) ≤ heightOf params :=
  unparenthesizedItems_eq_map params ▸ heightOf_unparenthesizedItems_le params

end Pattern

namespace Expr

open Pattern (height_unparenthesized_le heightOf_map_unparenthesized_le)

mutual

/-- Without parentheses an expression is not higher. -/
theorem height_bare_le : ∀ expr : Expr ι, (expr.recast .bare).height ≤ expr.height
  | .tuple _ first second | .operation _ _ first second => by
    have := height_bare_le first
    have := height_bare_le second
    simp only [recast, Style.bare, height] at *
    omega
  | .triple _ first second third | .conditional _ first second third => by
    have := height_bare_le first
    have := height_bare_le second
    have := height_bare_le third
    simp only [recast, Style.bare, height] at *
    omega
  | .list _ items => Nat.succ_le_succ (itemsHeight_bare_le items)
  | .lambda _ params body => by
    have := heightOf_map_unparenthesized_le params
    have := height_bare_le body
    simp only [recast, Style.bare, height] at *
    omega
  | .record _ fields | .update _ _ fields => Nat.succ_le_succ (fieldsHeight_bare_le fields)
  | .access _ inner _ | .negate _ inner => Nat.succ_le_succ (height_bare_le inner)
  | .parenthesized _ inner => Nat.le_succ_of_le (height_bare_le inner)
  | .application _ function args => by
    have := height_bare_le function
    have := itemsHeight_bare_le args
    simp only [recast, Style.bare, height] at *
    omega
  | .letIn _ bindings body => by
    have := bindingsHeight_bare_le bindings
    have := height_bare_le body
    simp only [recast, Style.bare, height] at *
    omega
  | .caseOf _ subject branches => by
    have := height_bare_le subject
    have := branchesHeight_bare_le branches
    simp only [recast, Style.bare, height] at *
    omega
  | .unit _ | .integer .. | .hex .. | .float .. | .string .. | .char .. | .var .. | .accessor .. | .operator ..
  | .glsl .. => Nat.le_refl _

theorem itemsHeight_bare_le : ∀ items : List (Expr ι), itemsHeight (recastItems .bare items) ≤ itemsHeight items
  | [] => Nat.le_refl _
  | item :: rest => by
    have := height_bare_le item
    have := itemsHeight_bare_le rest
    simp only [recastItems, itemsHeight]
    omega

theorem fieldsHeight_bare_le : ∀ fields : List (Field ι), fieldsHeight (recastFields .bare fields) ≤ fieldsHeight fields
  | [] => Nat.le_refl _
  | .mk _ value :: rest => by
    have := height_bare_le value
    have := fieldsHeight_bare_le rest
    simp only [recastFields, fieldsHeight]
    omega

theorem branchesHeight_bare_le : ∀ branches : List (Branch ι),
    branchesHeight (recastBranches .bare branches) ≤ branchesHeight branches
  | [] => Nat.le_refl _
  | .mk pattern body :: rest => by
    have := height_unparenthesized_le pattern
    have := height_bare_le body
    have := branchesHeight_bare_le rest
    simp only [recastBranches, Style.bare, branchesHeight] at *
    omega

theorem bindingsHeight_bare_le : ∀ bindings : List (Binding ι),
    bindingsHeight (recastBindings .bare bindings) ≤ bindingsHeight bindings
  | [] => Nat.le_refl _
  | .function _ params body :: rest => by
    have := heightOf_map_unparenthesized_le params
    have := height_bare_le body
    have := bindingsHeight_bare_le rest
    simp only [recastBindings, Style.bare, bindingsHeight] at *
    omega
  | .destructuring pattern body :: rest => by
    have := height_unparenthesized_le pattern
    have := height_bare_le body
    have := bindingsHeight_bare_le rest
    simp only [recastBindings, Style.bare, bindingsHeight] at *
    omega

end

theorem height_unparenthesized_le (expr : Expr ι) : expr.unparenthesized.height ≤ expr.height := height_bare_le expr

end Expr

end RowInference
