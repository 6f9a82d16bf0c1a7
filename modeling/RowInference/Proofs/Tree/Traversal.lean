import RowInference.Tree.Module

/-! # Visiting the nodes of a tree

Replacing the information on a tree calls a function with effects once for each node, children before their parent. A
tree is taken apart here into its skeleton, which is the tree without the information, and the information in order.
The function is called on the second part, one after the other, and its answers together with the old skeleton are the
new tree.
-/

namespace RowInference

variable {ι κ : Type} {m : Type → Type} [Monad m]

/-! ## Trees in parts -/

/-- How trees of some kind are taken apart and visited. -/
structure Traversal (T : Type → Type) where
  skeleton : {ι : Type} → T ι → T Unit
  infos : {ι : Type} → T ι → List ι
  /-- Replace the information by what a function returns for it. -/
  mapM : {ι κ : Type} → {m : Type → Type} → [Monad m] → (ι → m κ) → T ι → m (T κ)

namespace Traversal

variable {T : Type → Type} (traversal : Traversal T)

def parts (tree : T ι) : T Unit × List ι := (traversal.skeleton tree, traversal.infos tree)

/-- Replace the information by a function without effects. -/
def map (change : ι → κ) (tree : T ι) : T κ := Id.run (traversal.mapM (fun info => pure (change info)) tree)

/-- Every node is visited once and in order, and nothing but its information changes. -/
structure Orderly : Prop where
  /-- The calls are those for the information in order. Their answers are put in the same order on the same skeleton. -/
  visits : ∀ {ι κ : Type} {m : Type → Type} [Monad m] [LawfulMonad m] (visit : ι → m κ) (tree : T ι),
    traversal.parts <$> traversal.mapM visit tree =
      (fun answers => (traversal.skeleton tree, answers)) <$> (traversal.infos tree).mapM visit
  /-- There is nothing in a tree but its skeleton and the information. -/
  determined : ∀ {ι : Type} (left right : T ι), traversal.parts left = traversal.parts right → left = right
  /-- Two passes with functions without effects are one pass. -/
  fuses : ∀ {ι κ μ : Type} (change : ι → κ) (next : κ → μ) (tree : T ι),
    traversal.map next (traversal.map change tree) = traversal.map (next ∘ change) tree
  /-- Information replaced by itself leaves the tree as it is. -/
  identity : ∀ {ι : Type} (tree : T ι), traversal.map id tree = tree

/-- Take the next of the answers in store; an empty store has none. -/
def nextAnswer (_ : Unit) : StateT (List κ) Option κ
  | [] => none
  | answer :: rest => some (answer, rest)

@[simp] theorem run_nextAnswer (answer : κ) (rest : List κ) :
    (nextAnswer ()).run (answer :: rest) = some (answer, rest) := rfl

section Laws

variable {traversal}
  (visits : ∀ {ι κ : Type} {m : Type → Type} [Monad m] [LawfulMonad m] (visit : ι → m κ) (tree : T ι),
    traversal.parts <$> traversal.mapM visit tree =
      (fun answers => (traversal.skeleton tree, answers)) <$> (traversal.infos tree).mapM visit)
  (refill : ∀ {ι : Type} (tree : T ι) (rest : List ι),
    (traversal.mapM nextAnswer (traversal.skeleton tree)).run (traversal.infos tree ++ rest) = some (tree, rest))

include visits in
/-- A pass changes the information and keeps the skeleton. -/
theorem parts_map (change : ι → κ) (tree : T ι) :
    traversal.parts (traversal.map change tree) = (traversal.skeleton tree, (traversal.infos tree).map change) := by
  have visited := congrArg Id.run (visits (fun info => (pure (change info) : Id κ)) tree)
  simpa [map] using visited

include refill in
/-- Trees with the same skeleton and the same information are equal. -/
theorem eq_of_parts_eq (left right : T ι) (same : traversal.parts left = traversal.parts right) : left = right := by
  rw [parts, parts, Prod.mk.injEq] at same
  have refilled := refill left []
  rw [same.1, same.2, refill right []] at refilled
  cases refilled
  rfl

include visits refill in
/-- It is enough that calls and answers are in order and that the information can be put back on a skeleton. -/
theorem orderly_of_refill : traversal.Orderly where
  visits := visits
  determined := eq_of_parts_eq refill
  fuses change next tree := by
    apply eq_of_parts_eq refill
    have first := parts_map visits change tree
    rw [parts, Prod.mk.injEq] at first
    rw [parts_map visits, parts_map visits, first.1, first.2, List.map_map]
  identity tree := by
    apply eq_of_parts_eq refill
    rw [parts_map visits, List.map_id, parts]

end Laws

end Traversal

/-! ## Runs part by part -/

/-- A run returns something of a certain form with, in order, the information `before` and what the calls answer. -/
def Answers {T S : Type} (parts : T → S × List κ) (run : m T) (form : S) (before : List κ) (calls : m (List κ)) :
    Prop :=
  parts <$> run = (fun found => (form, before ++ found)) <$> calls

section Answers

variable [LawfulMonad m] {A B C T R U V S : Type} {parts : T → S × List κ} {before : List κ}
    {visit : ι → m κ} {info : ι}
  {parts₁ : A → R × List κ} {run₁ : m A} {form₁ : R} {infos₁ : List ι}
  {parts₂ : B → U × List κ} {run₂ : m B} {form₂ : U} {infos₂ : List ι}
  {parts₃ : C → V × List κ} {run₃ : m C} {form₃ : V} {infos₃ : List ι}

theorem answers_pure {tree : T} {form : S} (splits : parts tree = (form, before)) :
    Answers parts (pure tree) form before (([] : List ι).mapM visit) := by
  simp [Answers, splits]

/-- The node itself, when its children have been visited. -/
theorem answers_visit {build : κ → T} {form : S}
    (splits : ∀ answer, parts (build answer) = (form, before ++ [answer])) :
    Answers parts (do return build (← visit info)) form before ([info].mapM visit) := by
  simp [Answers, splits]

/-- The answers on a child stand before those on what follows it. -/
theorem Answers.step (first : Answers parts₁ run₁ form₁ [] (infos₁.mapM visit)) (form : R → S) {rest : A → m T}
    (later : ∀ x, Answers parts (rest x) (form (parts₁ x).1) (before ++ (parts₁ x).2) (infos₂.mapM visit)) :
    Answers parts (run₁ >>= rest) (form form₁) before ((infos₁ ++ infos₂).mapM visit) := by
  calc
    parts <$> (run₁ >>= rest) = (parts₁ <$> run₁) >>= fun part =>
        (fun found => (form part.1, before ++ part.2 ++ found)) <$> infos₂.mapM visit := by
      rw [map_bind, bind_map_left]
      exact bind_congr later
    _ = ((fun found => (form₁, [] ++ found)) <$> infos₁.mapM visit) >>= fun part =>
        (fun found => (form part.1, before ++ part.2 ++ found)) <$> infos₂.mapM visit := by
      rw [first]
    _ = (fun found => (form form₁, before ++ found)) <$> (infos₁ ++ infos₂).mapM visit := by
      simp [List.mapM_append]

/-- A node is visited after its only child. -/
theorem Answers.node (first : Answers parts₁ run₁ form₁ [] (infos₁.mapM visit)) {build : κ → A → T} (form : R → S)
    (splits : ∀ answer x, parts (build answer x) = (form (parts₁ x).1, (parts₁ x).2 ++ [answer])) :
    Answers parts (do
      let x ← run₁
      return build (← visit info) x) (form form₁) [] ((infos₁ ++ [info]).mapM visit) :=
  first.step form fun x => answers_visit (splits · x)

/-- A node with two children: they are visited first, from left to right. -/
theorem Answers.node₂ (first : Answers parts₁ run₁ form₁ [] (infos₁.mapM visit))
    (second : Answers parts₂ run₂ form₂ [] (infos₂.mapM visit)) {build : κ → A → B → T} (form : R → U → S)
    (splits : ∀ answer x y, parts (build answer x y)
      = (form (parts₁ x).1 (parts₂ y).1, (parts₁ x).2 ++ ((parts₂ y).2 ++ [answer]))) :
    Answers parts (do
      let x ← run₁
      let y ← run₂
      return build (← visit info) x y) (form form₁ form₂) [] ((infos₁ ++ (infos₂ ++ [info])).mapM visit) :=
  first.step (form · form₂) fun x => second.step (form _) fun y => answers_visit fun answer => by
    rw [splits, List.nil_append, List.append_assoc]

/-- A node with three children. -/
theorem Answers.node₃ (first : Answers parts₁ run₁ form₁ [] (infos₁.mapM visit))
    (second : Answers parts₂ run₂ form₂ [] (infos₂.mapM visit))
    (third : Answers parts₃ run₃ form₃ [] (infos₃.mapM visit)) {build : κ → A → B → C → T} (form : R → U → V → S)
    (splits : ∀ answer x y z, parts (build answer x y z) = (form (parts₁ x).1 (parts₂ y).1 (parts₃ z).1,
      (parts₁ x).2 ++ ((parts₂ y).2 ++ ((parts₃ z).2 ++ [answer])))) :
    Answers parts (do
      let x ← run₁
      let y ← run₂
      let z ← run₃
      return build (← visit info) x y z) (form form₁ form₂ form₃) []
      ((infos₁ ++ (infos₂ ++ (infos₃ ++ [info]))).mapM visit) :=
  first.step (form · form₂ form₃) fun x => second.step (form _ · form₃) fun y => third.step (form _ _) fun z =>
    answers_visit fun answer => by rw [splits, List.nil_append, List.append_assoc, List.append_assoc]

/-- Two parts without a node of their own. -/
theorem Answers.pair (first : Answers parts₁ run₁ form₁ [] (infos₁.mapM visit))
    (second : Answers parts₂ run₂ form₂ [] (infos₂.mapM visit)) {build : A → B → T} (form : R → U → S)
    (splits : ∀ x y, parts (build x y) = (form (parts₁ x).1 (parts₂ y).1, (parts₁ x).2 ++ (parts₂ y).2)) :
    Answers parts (do
      let x ← run₁
      let y ← run₂
      return build x y) (form form₁ form₂) [] ((infos₁ ++ infos₂).mapM visit) := by
  rw [← List.append_nil infos₂]
  exact first.step (form · form₂) fun x => second.step (form _) fun y => answers_pure (splits x y)

/-- Three parts without a node of their own. -/
theorem Answers.triple (first : Answers parts₁ run₁ form₁ [] (infos₁.mapM visit))
    (second : Answers parts₂ run₂ form₂ [] (infos₂.mapM visit))
    (third : Answers parts₃ run₃ form₃ [] (infos₃.mapM visit)) {build : A → B → C → T} (form : R → U → V → S)
    (splits : ∀ x y z, parts (build x y z)
      = (form (parts₁ x).1 (parts₂ y).1 (parts₃ z).1, (parts₁ x).2 ++ ((parts₂ y).2 ++ (parts₃ z).2))) :
    Answers parts (do
      let x ← run₁
      let y ← run₂
      let z ← run₃
      return build x y z) (form form₁ form₂ form₃) [] ((infos₁ ++ (infos₂ ++ infos₃)).mapM visit) := by
  rw [← List.append_nil infos₃]
  exact first.step (form · form₂ form₃) fun x => second.step (form _ · form₃) fun y => third.step (form _ _) fun z =>
    answers_pure (by rw [splits, List.nil_append, List.append_assoc])

end Answers

/-! ## Patterns -/

namespace Pattern

mutual

/-- The pattern without the information on its nodes. -/
def skeleton : Pattern ι → Pattern Unit
  | .unit _ => .unit ()
  | .wildcard _ => .wildcard ()
  | .var _ name => .var () name
  | .integer _ value => .integer () value
  | .hex _ value => .hex () value
  | .float _ value => .float () value
  | .string _ value => .string () value
  | .char _ value => .char () value
  | .tuple _ first second => .tuple () first.skeleton second.skeleton
  | .triple _ first second third => .triple () first.skeleton second.skeleton third.skeleton
  | .list _ items => .list () (skeletons items)
  | .cons _ head tail => .cons () head.skeleton tail.skeleton
  | .record _ fields => .record () fields
  | .aliased _ inner name => .aliased () inner.skeleton name
  | .parenthesized _ inner => .parenthesized () inner.skeleton

def skeletons : List (Pattern ι) → List (Pattern Unit)
  | [] => []
  | pattern :: rest => pattern.skeleton :: skeletons rest

end

def traversal : Traversal Pattern where
  skeleton := skeleton
  infos := infos
  mapM := mapInfoM

def listTraversal : Traversal fun ι => List (Pattern ι) where
  skeleton := skeletons
  infos := infosOf
  mapM := mapInfosM

mutual

/-- The visits to a pattern are those of its information in order. -/
theorem answers [LawfulMonad m] (visit : ι → m κ) (pattern : Pattern ι) :
    Answers traversal.parts (pattern.mapInfoM visit) pattern.skeleton [] (pattern.infos.mapM visit) := by
  cases pattern
  case tuple info first second => exact (first.answers visit).node₂ (second.answers visit) (tuple ()) fun _ _ _ => rfl
  case triple info first second third =>
    exact (first.answers visit).node₃ (second.answers visit) (third.answers visit) (triple ()) fun _ _ _ _ => rfl
  case list info items => exact (listAnswers visit items).node (list ()) fun _ _ => rfl
  case cons info head tail => exact (head.answers visit).node₂ (tail.answers visit) (cons ()) fun _ _ _ => rfl
  case aliased info inner name => exact (inner.answers visit).node (aliased () · name) fun _ _ => rfl
  case parenthesized info inner => exact (inner.answers visit).node (parenthesized ()) fun _ _ => rfl
  all_goals exact answers_visit fun _ => rfl

theorem listAnswers [LawfulMonad m] (visit : ι → m κ) (items : List (Pattern ι)) :
    Answers listTraversal.parts (mapInfosM visit items) (skeletons items) [] ((infosOf items).mapM visit) := by
  match items with
  | [] => exact answers_pure rfl
  | pattern :: rest => exact (pattern.answers visit).pair (listAnswers visit rest) List.cons fun _ _ => rfl

end

mutual

/-- Filling a skeleton with the information of a pattern gives the pattern back. -/
theorem refill (pattern : Pattern κ) (rest : List κ) :
    (pattern.skeleton.mapInfoM Traversal.nextAnswer).run (pattern.infos ++ rest) = some (pattern, rest) := by
  cases pattern
  case tuple info first second => simp [skeleton, infos, mapInfoM, first.refill, second.refill]
  case triple info first second third => simp [skeleton, infos, mapInfoM, first.refill, second.refill, third.refill]
  case list info items => simp [skeleton, infos, mapInfoM, listRefill items]
  case cons info head tail => simp [skeleton, infos, mapInfoM, head.refill, tail.refill]
  case aliased info inner name => simp [skeleton, infos, mapInfoM, inner.refill]
  case parenthesized info inner => simp [skeleton, infos, mapInfoM, inner.refill]
  all_goals simp [skeleton, infos, mapInfoM]

/-- Patterns are filled from a store that begins with their information, and the rest of it stays. -/
theorem listRefill (items : List (Pattern κ)) (rest : List κ) :
    (mapInfosM Traversal.nextAnswer (skeletons items)).run (infosOf items ++ rest) = some (items, rest) := by
  match items with
  | [] => simp [skeletons, infosOf, mapInfosM]
  | pattern :: others => simp [skeletons, infosOf, mapInfosM, pattern.refill, listRefill others]

end

theorem traversal_orderly : traversal.Orderly := Traversal.orderly_of_refill answers refill

end Pattern

/-! ## Expressions -/

namespace Expr

mutual

def skeleton : Expr ι → Expr Unit
  | .unit _ => .unit ()
  | .integer _ value => .integer () value
  | .hex _ value => .hex () value
  | .float _ value => .float () value
  | .string _ value => .string () value
  | .char _ value => .char () value
  | .var _ name => .var () name
  | .tuple _ first second => .tuple () first.skeleton second.skeleton
  | .triple _ first second third => .triple () first.skeleton second.skeleton third.skeleton
  | .list _ items => .list () (itemSkeletons items)
  | .lambda _ params body => .lambda () (Pattern.skeletons params) body.skeleton
  | .record _ fields => .record () (fieldSkeletons fields)
  | .accessor _ field => .accessor () field
  | .access _ subject field => .access () subject.skeleton field
  | .update _ name updates => .update () name (fieldSkeletons updates)
  | .parenthesized _ inner => .parenthesized () inner.skeleton
  | .application _ function args => .application () function.skeleton (itemSkeletons args)
  | .operation _ op left right => .operation () op left.skeleton right.skeleton
  | .operator _ op => .operator () op
  | .negate _ inner => .negate () inner.skeleton
  | .conditional _ condition thenBranch elseBranch =>
    .conditional () condition.skeleton thenBranch.skeleton elseBranch.skeleton
  | .letIn _ bindings body => .letIn () (bindingSkeletons bindings) body.skeleton
  | .caseOf _ subject branches => .caseOf () subject.skeleton (branchSkeletons branches)
  | .glsl _ source => .glsl () source

def itemSkeletons : List (Expr ι) → List (Expr Unit)
  | [] => []
  | item :: rest => item.skeleton :: itemSkeletons rest

def fieldSkeletons : List (Field ι) → List (Field Unit)
  | [] => []
  | .mk name value :: rest => .mk name value.skeleton :: fieldSkeletons rest

def branchSkeletons : List (Branch ι) → List (Branch Unit)
  | [] => []
  | .mk pattern body :: rest => .mk pattern.skeleton body.skeleton :: branchSkeletons rest

def bindingSkeletons : List (Binding ι) → List (Binding Unit)
  | [] => []
  | .function name params body :: rest =>
    .function name (Pattern.skeletons params) body.skeleton :: bindingSkeletons rest
  | .destructuring pattern body :: rest => .destructuring pattern.skeleton body.skeleton :: bindingSkeletons rest

end

def traversal : Traversal Expr where
  skeleton := skeleton
  infos := infos
  mapM := mapInfoM

def itemTraversal : Traversal fun ι => List (Expr ι) where
  skeleton := itemSkeletons
  infos := itemInfos
  mapM := mapItemsM

def fieldTraversal : Traversal fun ι => List (Field ι) where
  skeleton := fieldSkeletons
  infos := fieldInfos
  mapM := mapFieldsM

def branchTraversal : Traversal fun ι => List (Branch ι) where
  skeleton := branchSkeletons
  infos := branchInfos
  mapM := mapBranchesM

def bindingTraversal : Traversal fun ι => List (Binding ι) where
  skeleton := bindingSkeletons
  infos := bindingInfos
  mapM := mapBindingsM

mutual

/-- The visits to an expression are those of its information in order. -/
theorem answers [LawfulMonad m] (visit : ι → m κ) (expr : Expr ι) :
    Answers traversal.parts (expr.mapInfoM visit) expr.skeleton [] (expr.infos.mapM visit) := by
  cases expr
  case tuple info first second => exact (first.answers visit).node₂ (second.answers visit) (tuple ()) fun _ _ _ => rfl
  case triple info first second third =>
    exact (first.answers visit).node₃ (second.answers visit) (third.answers visit) (triple ()) fun _ _ _ _ => rfl
  case list info items => exact (itemAnswers visit items).node (list ()) fun _ _ => rfl
  case lambda info params body =>
    exact (Pattern.listAnswers visit params).node₂ (body.answers visit) (lambda ()) fun _ _ _ => rfl
  case record info fields => exact (fieldAnswers visit fields).node (record ()) fun _ _ => rfl
  case access info subject field => exact (subject.answers visit).node (access () · field) fun _ _ => rfl
  case update info name updates => exact (fieldAnswers visit updates).node (update () name) fun _ _ => rfl
  case parenthesized info inner => exact (inner.answers visit).node (parenthesized ()) fun _ _ => rfl
  case application info function args =>
    exact (function.answers visit).node₂ (itemAnswers visit args) (application ()) fun _ _ _ => rfl
  case operation info op left right =>
    exact (left.answers visit).node₂ (right.answers visit) (operation () op) fun _ _ _ => rfl
  case negate info inner => exact (inner.answers visit).node (negate ()) fun _ _ => rfl
  case conditional info condition thenBranch elseBranch =>
    exact (condition.answers visit).node₃ (thenBranch.answers visit) (elseBranch.answers visit) (conditional ())
      fun _ _ _ _ => rfl
  case letIn info bindings body =>
    exact (bindingAnswers visit bindings).node₂ (body.answers visit) (letIn ()) fun _ _ _ => rfl
  case caseOf info subject branches =>
    exact (subject.answers visit).node₂ (branchAnswers visit branches) (caseOf ()) fun _ _ _ => rfl
  all_goals exact answers_visit fun _ => rfl

theorem itemAnswers [LawfulMonad m] (visit : ι → m κ) (items : List (Expr ι)) :
    Answers itemTraversal.parts (mapItemsM visit items) (itemSkeletons items) [] ((itemInfos items).mapM visit) := by
  match items with
  | [] => exact answers_pure rfl
  | item :: rest => exact (item.answers visit).pair (itemAnswers visit rest) List.cons fun _ _ => rfl

theorem fieldAnswers [LawfulMonad m] (visit : ι → m κ) (fields : List (Field ι)) :
    Answers fieldTraversal.parts (mapFieldsM visit fields) (fieldSkeletons fields) []
      ((fieldInfos fields).mapM visit) := by
  match fields with
  | [] => exact answers_pure rfl
  | .mk name value :: rest =>
    exact (value.answers visit).pair (fieldAnswers visit rest) (Field.mk name · :: ·) fun _ _ => rfl

theorem branchAnswers [LawfulMonad m] (visit : ι → m κ) (branches : List (Branch ι)) :
    Answers branchTraversal.parts (mapBranchesM visit branches) (branchSkeletons branches) []
      ((branchInfos branches).mapM visit) := by
  match branches with
  | [] => exact answers_pure rfl
  | .mk pattern body :: rest =>
    exact (pattern.answers visit).triple (body.answers visit) (branchAnswers visit rest) (Branch.mk · · :: ·)
      fun _ _ _ => rfl

theorem bindingAnswers [LawfulMonad m] (visit : ι → m κ) (bindings : List (Binding ι)) :
    Answers bindingTraversal.parts (mapBindingsM visit bindings) (bindingSkeletons bindings) []
      ((bindingInfos bindings).mapM visit) := by
  match bindings with
  | [] => exact answers_pure rfl
  | .function name params body :: rest =>
    exact (Pattern.listAnswers visit params).triple (body.answers visit) (bindingAnswers visit rest)
      (Binding.function name · · :: ·) fun _ _ _ => rfl
  | .destructuring pattern body :: rest =>
    exact (pattern.answers visit).triple (body.answers visit) (bindingAnswers visit rest)
      (Binding.destructuring · · :: ·) fun _ _ _ => rfl

end

mutual

/-- Filling a skeleton with the information of an expression gives the expression back. -/
theorem refill (expr : Expr κ) (rest : List κ) :
    (expr.skeleton.mapInfoM Traversal.nextAnswer).run (expr.infos ++ rest) = some (expr, rest) := by
  cases expr
  case tuple info first second => simp [skeleton, infos, mapInfoM, first.refill, second.refill]
  case triple info first second third => simp [skeleton, infos, mapInfoM, first.refill, second.refill, third.refill]
  case list info items => simp [skeleton, infos, mapInfoM, itemRefill items]
  case lambda info params body => simp [skeleton, infos, mapInfoM, Pattern.listRefill params, body.refill]
  case record info fields => simp [skeleton, infos, mapInfoM, fieldRefill fields]
  case access info subject field => simp [skeleton, infos, mapInfoM, subject.refill]
  case update info name updates => simp [skeleton, infos, mapInfoM, fieldRefill updates]
  case parenthesized info inner => simp [skeleton, infos, mapInfoM, inner.refill]
  case application info function args => simp [skeleton, infos, mapInfoM, function.refill, itemRefill args]
  case operation info op left right => simp [skeleton, infos, mapInfoM, left.refill, right.refill]
  case negate info inner => simp [skeleton, infos, mapInfoM, inner.refill]
  case conditional info condition thenBranch elseBranch =>
    simp [skeleton, infos, mapInfoM, condition.refill, thenBranch.refill, elseBranch.refill]
  case letIn info bindings body => simp [skeleton, infos, mapInfoM, bindingRefill bindings, body.refill]
  case caseOf info subject branches => simp [skeleton, infos, mapInfoM, subject.refill, branchRefill branches]
  all_goals simp [skeleton, infos, mapInfoM]

/-- Expressions are filled from a store that begins with their information. -/
theorem itemRefill (items : List (Expr κ)) (rest : List κ) :
    (mapItemsM Traversal.nextAnswer (itemSkeletons items)).run (itemInfos items ++ rest) = some (items, rest) := by
  match items with
  | [] => simp [itemSkeletons, itemInfos, mapItemsM]
  | item :: others => simp [itemSkeletons, itemInfos, mapItemsM, item.refill, itemRefill others]

theorem fieldRefill (fields : List (Field κ)) (rest : List κ) :
    (mapFieldsM Traversal.nextAnswer (fieldSkeletons fields)).run (fieldInfos fields ++ rest) =
    some (fields, rest) := by
  match fields with
  | [] => simp [fieldSkeletons, fieldInfos, mapFieldsM]
  | .mk name value :: others => simp [fieldSkeletons, fieldInfos, mapFieldsM, value.refill, fieldRefill others]

theorem branchRefill (branches : List (Branch κ)) (rest : List κ) :
    (mapBranchesM Traversal.nextAnswer (branchSkeletons branches)).run (branchInfos branches ++ rest)
      = some (branches, rest) := by
  match branches with
  | [] => simp [branchSkeletons, branchInfos, mapBranchesM]
  | .mk pattern body :: others =>
    simp [branchSkeletons, branchInfos, mapBranchesM, pattern.refill, body.refill, branchRefill others]

theorem bindingRefill (bindings : List (Binding κ)) (rest : List κ) :
    (mapBindingsM Traversal.nextAnswer (bindingSkeletons bindings)).run (bindingInfos bindings ++ rest)
      = some (bindings, rest) := by
  match bindings with
  | [] => simp [bindingSkeletons, bindingInfos, mapBindingsM]
  | .function name params body :: others =>
    simp [bindingSkeletons, bindingInfos, mapBindingsM, Pattern.listRefill params, body.refill, bindingRefill others]
  | .destructuring pattern body :: others =>
    simp [bindingSkeletons, bindingInfos, mapBindingsM, pattern.refill, body.refill, bindingRefill others]

end

theorem traversal_orderly : traversal.Orderly := Traversal.orderly_of_refill answers refill

theorem bindingTraversal_orderly : bindingTraversal.Orderly := Traversal.orderly_of_refill bindingAnswers bindingRefill

end Expr

/-! ## Declarations and modules -/

namespace Declaration

def skeleton (declaration : Declaration ι) : Declaration Unit :=
  ⟨declaration.name, Pattern.skeletons declaration.params, declaration.body.skeleton, ()⟩

def traversal : Traversal Declaration where
  skeleton := skeleton
  infos := infos
  mapM := mapInfoM

/-- A declaration is visited after its parameters and its body. -/
theorem answers [LawfulMonad m] (visit : ι → m κ) (declaration : Declaration ι) :
    Answers traversal.parts (declaration.mapInfoM visit) declaration.skeleton [] (declaration.infos.mapM visit) :=
  (Pattern.listAnswers visit declaration.params).node₂ (declaration.body.answers visit)
    (Declaration.mk declaration.name · · ()) fun _ _ _ => rfl

theorem refill (declaration : Declaration κ) (rest : List κ) :
    (declaration.skeleton.mapInfoM Traversal.nextAnswer).run (declaration.infos ++ rest) =
    some (declaration, rest) := by
  simp [skeleton, infos, mapInfoM, Pattern.listRefill, Expr.refill]

theorem traversal_orderly : traversal.Orderly := Traversal.orderly_of_refill answers refill

end Declaration

namespace Module

def skeleton (module : Module ι) : Module Unit :=
  ⟨module.name, module.imports, module.declarations.map Declaration.skeleton⟩

def declarationTraversal : Traversal fun ι => List (Declaration ι) where
  skeleton := List.map Declaration.skeleton
  infos := List.flatMap Declaration.infos
  mapM := mapDeclarationsM

def traversal : Traversal Module where
  skeleton := skeleton
  infos := infos
  mapM := mapInfoM

theorem declarationAnswers [LawfulMonad m] (visit : ι → m κ) (declarations : List (Declaration ι)) :
    Answers declarationTraversal.parts (mapDeclarationsM visit declarations) (declarations.map Declaration.skeleton) []
      ((declarations.flatMap Declaration.infos).mapM visit) := by
  induction declarations with
  | nil => exact answers_pure rfl
  | cons declaration rest ih => exact (declaration.answers visit).pair ih List.cons fun _ _ => rfl

theorem answers [LawfulMonad m] (visit : ι → m κ) (module : Module ι) :
    Answers traversal.parts (module.mapInfoM visit) module.skeleton [] (module.infos.mapM visit) := by
  rw [← List.append_nil module.infos]
  exact (declarationAnswers visit module.declarations).step (Module.mk module.name module.imports)
    fun _ => answers_pure rfl

theorem declarationRefill (declarations : List (Declaration κ)) (rest : List κ) :
    (mapDeclarationsM Traversal.nextAnswer (declarations.map Declaration.skeleton)).run
      (declarations.flatMap Declaration.infos ++ rest) = some (declarations, rest) := by
  induction declarations with
  | nil => simp [mapDeclarationsM]
  | cons declaration others ih => simp [mapDeclarationsM, declaration.refill, ih]

/-- A module is filled from a store that begins with its information. -/
theorem refill (module : Module κ) (rest : List κ) :
    (module.skeleton.mapInfoM Traversal.nextAnswer).run (module.infos ++ rest) = some (module, rest) := by
  simp [skeleton, infos, mapInfoM, declarationRefill]

theorem traversal_orderly : traversal.Orderly := Traversal.orderly_of_refill answers refill

end Module

/-- Replacing the information on patterns, expressions, let bindings, declarations and modules visits each node once,
children in the order in which they are written and before their parent. The answers are put on the nodes for which they
were given, and all else is kept. -/
theorem mapInfoM_orderly :
    Pattern.traversal.Orderly ∧ Expr.traversal.Orderly ∧ Expr.bindingTraversal.Orderly ∧
      Declaration.traversal.Orderly ∧ Module.traversal.Orderly :=
  ⟨Pattern.traversal_orderly, Expr.traversal_orderly, Expr.bindingTraversal_orderly, Declaration.traversal_orderly,
    Module.traversal_orderly⟩

/-- Nodes numbered in the order of visits. -/
example :
    let count : Unit → StateM Nat Nat := fun _ => modifyGet fun number => (number, number + 1)
    let expr : Expr Unit := .lambda () [.var () "x"] (.tuple () (.var () "x") (.list () [.integer () 1, .integer () 2]))
    ((expr.mapInfoM count).run 0).1 =
      .lambda 6 [.var 0 "x"] (.tuple 5 (.var 1 "x") (.list 4 [.integer 2 1, .integer 3 2])) := rfl

end RowInference
