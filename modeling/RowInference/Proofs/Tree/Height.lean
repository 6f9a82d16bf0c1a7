import RowInference.Proofs.Tree.Annotation

/-! # The height of a tree

How many nodes of a tree lie one inside the other at most, with expressions and patterns counted alike. Fields, branches
and bindings are no nodes of their own. The height does not depend on the information on the nodes.
-/

namespace RowInference

variable {ι κ : Type} (change : ι → κ)

namespace Pattern

mutual

/-- The number of nodes on the longest way down. -/
def height : Pattern ι → Nat
  | .tuple _ first second => max first.height second.height + 1
  | .triple _ first second third => max first.height (max second.height third.height) + 1
  | .list _ items => heightOf items + 1
  | .cons _ head tail => max head.height tail.height + 1
  | .aliased _ inner _ => inner.height + 1
  | .parenthesized _ inner => inner.height + 1
  | .unit _ | .wildcard _ | .var .. | .integer .. | .hex .. | .float .. | .string .. | .char .. | .record .. => 1

def heightOf : List (Pattern ι) → Nat
  | [] => 0
  | pattern :: rest => max pattern.height (heightOf rest)

end

mutual

@[simp] theorem height_mapInfo (pattern : Pattern ι) : (pattern.mapInfo change).height = pattern.height := by
  cases pattern
  case tuple info first second => simp [height, height_mapInfo first, height_mapInfo second]
  case triple info first second third =>
    simp [height, height_mapInfo first, height_mapInfo second, height_mapInfo third]
  case list info items => simp [height, heightOf_mapInfo items]
  case cons info head tail => simp [height, height_mapInfo head, height_mapInfo tail]
  case aliased info inner name => simp [height, height_mapInfo inner]
  case parenthesized info inner => simp [height, height_mapInfo inner]
  all_goals rfl

/-- Information has no influence on the height. -/
theorem heightOf_mapInfo (items : List (Pattern ι)) : heightOf (items.map (mapInfo change)) = heightOf items := by
  match items with
  | [] => rfl
  | item :: rest => simp [heightOf, height_mapInfo item, heightOf_mapInfo rest]

end

end Pattern

namespace Expr

mutual

def height : Expr ι → Nat
  | .tuple _ first second => max first.height second.height + 1
  | .triple _ first second third => max first.height (max second.height third.height) + 1
  | .list _ items => itemsHeight items + 1
  | .lambda _ params body => max (Pattern.heightOf params) body.height + 1
  | .record _ fields => fieldsHeight fields + 1
  | .access _ subject _ => subject.height + 1
  | .update _ _ updates => fieldsHeight updates + 1
  | .parenthesized _ inner => inner.height + 1
  | .application _ function args => max function.height (itemsHeight args) + 1
  | .operation _ _ left right => max left.height right.height + 1
  | .negate _ inner => inner.height + 1
  | .conditional _ condition thenBranch elseBranch =>
    max condition.height (max thenBranch.height elseBranch.height) + 1
  | .letIn _ bindings body => max (bindingsHeight bindings) body.height + 1
  | .caseOf _ subject branches => max subject.height (branchesHeight branches) + 1
  | .unit _ | .integer .. | .hex .. | .float .. | .string .. | .char .. | .var .. | .accessor .. | .operator ..
  | .glsl .. => 1

def itemsHeight : List (Expr ι) → Nat
  | [] => 0
  | item :: rest => max item.height (itemsHeight rest)

def fieldsHeight : List (Field ι) → Nat
  | [] => 0
  | .mk _ value :: rest => max value.height (fieldsHeight rest)

def branchesHeight : List (Branch ι) → Nat
  | [] => 0
  | .mk pattern body :: rest => max pattern.height (max body.height (branchesHeight rest))

def bindingsHeight : List (Binding ι) → Nat
  | [] => 0
  | .function _ params body :: rest => max (Pattern.heightOf params) (max body.height (bindingsHeight rest))
  | .destructuring pattern body :: rest => max pattern.height (max body.height (bindingsHeight rest))

end

mutual

@[simp] theorem height_mapInfo (expr : Expr ι) : (expr.mapInfo change).height = expr.height := by
  cases expr
  case tuple info first second => simp [height, height_mapInfo first, height_mapInfo second]
  case triple info first second third =>
    simp [height, height_mapInfo first, height_mapInfo second, height_mapInfo third]
  case list info items => simp [height, itemsHeight_mapInfo items]
  case lambda info params body => simp [height, Pattern.heightOf_mapInfo, height_mapInfo body]
  case record info fields => simp [height, fieldsHeight_mapInfo fields]
  case access info subject field => simp [height, height_mapInfo subject]
  case update info name updates => simp [height, fieldsHeight_mapInfo updates]
  case parenthesized info inner => simp [height, height_mapInfo inner]
  case application info function args => simp [height, height_mapInfo function, itemsHeight_mapInfo args]
  case operation info op left right => simp [height, height_mapInfo left, height_mapInfo right]
  case negate info inner => simp [height, height_mapInfo inner]
  case conditional info condition thenBranch elseBranch =>
    simp [height, height_mapInfo condition, height_mapInfo thenBranch, height_mapInfo elseBranch]
  case letIn info bindings body => simp [height, bindingsHeight_mapInfo bindings, height_mapInfo body]
  case caseOf info subject branches => simp [height, height_mapInfo subject, branchesHeight_mapInfo branches]
  all_goals rfl

/-- Information has no influence on the height. -/
theorem itemsHeight_mapInfo (items : List (Expr ι)) : itemsHeight (items.map (mapInfo change)) = itemsHeight items := by
  match items with
  | [] => rfl
  | item :: rest => simp [itemsHeight, height_mapInfo item, itemsHeight_mapInfo rest]

theorem fieldsHeight_mapInfo (fields : List (Field ι)) :
    fieldsHeight (fields.map (Field.mapInfo change)) = fieldsHeight fields := by
  match fields with
  | [] => rfl
  | .mk name value :: rest => simp [fieldsHeight, Field.mapInfo, height_mapInfo value, fieldsHeight_mapInfo rest]

theorem branchesHeight_mapInfo (branches : List (Branch ι)) :
    branchesHeight (branches.map (Branch.mapInfo change)) = branchesHeight branches := by
  match branches with
  | [] => rfl
  | .mk pattern body :: rest => simp [branchesHeight, Branch.mapInfo, height_mapInfo body, branchesHeight_mapInfo rest]

theorem bindingsHeight_mapInfo (bindings : List (Binding ι)) :
    bindingsHeight (bindings.map (Binding.mapInfo change)) = bindingsHeight bindings := by
  match bindings with
  | [] => rfl
  | .function name params body :: rest =>
    simp [bindingsHeight, Binding.mapInfo, Pattern.heightOf_mapInfo, height_mapInfo body, bindingsHeight_mapInfo rest]
  | .destructuring pattern body :: rest =>
    simp [bindingsHeight, Binding.mapInfo, height_mapInfo body, bindingsHeight_mapInfo rest]

end

end Expr

/-- The height of the highest parameter or of the body. -/
def Declaration.height (declaration : Declaration ι) : Nat :=
  max (Pattern.heightOf declaration.params) declaration.body.height

end RowInference
