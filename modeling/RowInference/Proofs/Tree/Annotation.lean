import RowInference.Tree.Module

/-! # Replacing the information on a tree

Replacing the information on all nodes of a tree by a function keeps the form of the tree: it goes to the parts of a
node one by one.
-/

namespace RowInference

variable {ι κ : Type} (change : ι → κ)

namespace Pattern

@[simp] theorem mapInfo_unit (info : ι) : (unit info).mapInfo change = unit (change info) := rfl

@[simp] theorem mapInfo_wildcard (info : ι) : (wildcard info).mapInfo change = wildcard (change info) := rfl

@[simp] theorem mapInfo_var (info : ι) (name : String) : (var info name).mapInfo change = var (change info) name := rfl

@[simp] theorem mapInfo_integer (info : ι) (value : Int64) :
    (integer info value).mapInfo change = integer (change info) value := rfl

@[simp] theorem mapInfo_hex (info : ι) (value : Int64) :
    (hex info value).mapInfo change = hex (change info) value := rfl

@[simp] theorem mapInfo_float (info : ι) (value : Double) :
    (float info value).mapInfo change = float (change info) value := rfl

@[simp] theorem mapInfo_string (info : ι) (value : String) :
    (string info value).mapInfo change = string (change info) value := rfl

@[simp] theorem mapInfo_char (info : ι) (value : Char) :
    (char info value).mapInfo change = char (change info) value := rfl

@[simp] theorem mapInfo_tuple (info : ι) (first second : Pattern ι) :
    (tuple info first second).mapInfo change = tuple (change info) (first.mapInfo change) (second.mapInfo change) := rfl

@[simp] theorem mapInfo_triple (info : ι) (first second third : Pattern ι) :
    (triple info first second third).mapInfo change
      = triple (change info) (first.mapInfo change) (second.mapInfo change) (third.mapInfo change) := rfl

/-- The patterns of a list one by one. -/
theorem mapInfosM_eq (items : List (Pattern ι)) :
    Id.run (mapInfosM (fun info => pure (change info)) items) = items.map (mapInfo change) := by
  induction items with
  | nil => rfl
  | cons item rest ih =>
    rw [List.map_cons, ← ih]
    rfl

@[simp] theorem mapInfo_list (info : ι) (items : List (Pattern ι)) :
    (list info items).mapInfo change = list (change info) (items.map (mapInfo change)) := by
  rw [← mapInfosM_eq]
  rfl

@[simp] theorem mapInfo_cons (info : ι) (head tail : Pattern ι) :
    (cons info head tail).mapInfo change = cons (change info) (head.mapInfo change) (tail.mapInfo change) := rfl

@[simp] theorem mapInfo_record (info : ι) (fields : List String) :
    (record info fields).mapInfo change = record (change info) fields := rfl

@[simp] theorem mapInfo_aliased (info : ι) (inner : Pattern ι) (name : String) :
    (aliased info inner name).mapInfo change = aliased (change info) (inner.mapInfo change) name := rfl

@[simp] theorem mapInfo_parenthesized (info : ι) (inner : Pattern ι) :
    (parenthesized info inner).mapInfo change = parenthesized (change info) (inner.mapInfo change) := rfl

@[simp] theorem info_mapInfo (pattern : Pattern ι) : (pattern.mapInfo change).info = change pattern.info := by
  cases pattern <;> rfl

mutual

@[simp] theorem infos_mapInfo (pattern : Pattern ι) :
    (pattern.mapInfo change).infos = pattern.infos.map change := by
  cases pattern
  case tuple info first second => simp [infos, infos_mapInfo first, infos_mapInfo second]
  case triple info first second third =>
    simp [infos, infos_mapInfo first, infos_mapInfo second, infos_mapInfo third]
  case list info items => simp [infos, infosOf_mapInfo items]
  case cons info head tail => simp [infos, infos_mapInfo head, infos_mapInfo tail]
  case aliased info inner name => simp [infos, infos_mapInfo inner]
  case parenthesized info inner => simp [infos, infos_mapInfo inner]
  all_goals rfl

theorem infosOf_mapInfo (items : List (Pattern ι)) :
    infosOf (items.map (mapInfo change)) = (infosOf items).map change := by
  match items with
  | [] => rfl
  | item :: rest => simp [infosOf, infos_mapInfo item, infosOf_mapInfo rest]

end

mutual

/-- Only what the function does to the information on the tree matters. -/
theorem mapInfo_congr {change other : ι → κ} (pattern : Pattern ι)
    (same : ∀ info ∈ pattern.infos, change info = other info) : pattern.mapInfo change = pattern.mapInfo other := by
  cases pattern
  all_goals simp only [infos, List.forall_mem_append, List.forall_mem_singleton] at same
  case tuple info first second =>
    simp [mapInfo_congr first same.1, mapInfo_congr second same.2.1, same.2.2]
  case triple info first second third =>
    simp [mapInfo_congr first same.1, mapInfo_congr second same.2.1, mapInfo_congr third same.2.2.1, same.2.2.2]
  case list info items => simp [mapInfos_congr items same.1, same.2]
  case cons info head tail => simp [mapInfo_congr head same.1, mapInfo_congr tail same.2.1, same.2.2]
  case aliased info inner name => simp [mapInfo_congr inner same.1, same.2]
  case parenthesized info inner => simp [mapInfo_congr inner same.1, same.2]
  all_goals simp [same]

/-- Functions that agree on the information of patterns change them alike. -/
theorem mapInfos_congr {change other : ι → κ} (items : List (Pattern ι))
    (same : ∀ info ∈ infosOf items, change info = other info) :
    items.map (mapInfo change) = items.map (mapInfo other) := by
  match items with
  | [] => rfl
  | item :: rest =>
    simp only [infosOf, List.forall_mem_append] at same
    rw [List.map_cons, List.map_cons, mapInfo_congr item same.1, mapInfos_congr rest same.2]

end

mutual

/-- Replacing the information twice is replacing it once. -/
theorem mapInfo_mapInfo {μ : Type} (next : κ → μ) (pattern : Pattern ι) :
    (pattern.mapInfo change).mapInfo next = pattern.mapInfo fun info => next (change info) := by
  cases pattern
  case tuple info first second => simp [mapInfo_mapInfo next first, mapInfo_mapInfo next second]
  case triple info first second third =>
    simp [mapInfo_mapInfo next first, mapInfo_mapInfo next second, mapInfo_mapInfo next third]
  case list info items => rw [mapInfo_list, mapInfo_list, mapInfo_list, mapInfos_mapInfos next items]
  case cons info head tail => simp [mapInfo_mapInfo next head, mapInfo_mapInfo next tail]
  case aliased info inner name => simp [mapInfo_mapInfo next inner]
  case parenthesized info inner => simp [mapInfo_mapInfo next inner]
  all_goals rfl

theorem mapInfos_mapInfos {μ : Type} (next : κ → μ) (items : List (Pattern ι)) :
    (items.map (mapInfo change)).map (mapInfo next) = items.map (mapInfo fun info => next (change info)) := by
  match items with
  | [] => rfl
  | item :: rest =>
    rw [List.map_cons, List.map_cons, List.map_cons, mapInfo_mapInfo next item, mapInfos_mapInfos next rest]

end

end Pattern

def Field.mapInfo : Field ι → Field κ
  | .mk name value => .mk name (value.mapInfo change)

def Branch.mapInfo : Branch ι → Branch κ
  | .mk pattern body => .mk (pattern.mapInfo change) (body.mapInfo change)

def Binding.mapInfo : Binding ι → Binding κ
  | .function name params body => .function name (params.map (Pattern.mapInfo change)) (body.mapInfo change)
  | .destructuring pattern body => .destructuring (pattern.mapInfo change) (body.mapInfo change)

namespace Expr

/-- A pass without effects over a list is a map. -/
theorem mapItemsM_eq (items : List (Expr ι)) :
    Id.run (mapItemsM (fun info => pure (change info)) items) = items.map (mapInfo change) := by
  induction items with
  | nil => rfl
  | cons item rest ih =>
    rw [List.map_cons, ← ih]
    rfl

theorem mapFieldsM_eq (fields : List (Field ι)) :
    Id.run (mapFieldsM (fun info => pure (change info)) fields) = fields.map (Field.mapInfo change) := by
  induction fields with
  | nil => rfl
  | cons field rest ih =>
    cases field
    rw [List.map_cons, ← ih]
    rfl

theorem mapBranchesM_eq (branches : List (Branch ι)) :
    Id.run (mapBranchesM (fun info => pure (change info)) branches) = branches.map (Branch.mapInfo change) := by
  induction branches with
  | nil => rfl
  | cons branch rest ih =>
    cases branch
    rw [List.map_cons, ← ih]
    rfl

theorem mapBindingsM_eq (bindings : List (Binding ι)) :
    Id.run (mapBindingsM (fun info => pure (change info)) bindings) = bindings.map (Binding.mapInfo change) := by
  induction bindings with
  | nil => rfl
  | cons binding rest ih =>
    rw [List.map_cons, ← ih]
    cases binding with
    | function name params body =>
      rw [Binding.mapInfo, ← Pattern.mapInfosM_eq]
      rfl
    | destructuring pattern body => rfl

@[simp] theorem mapInfo_unit (info : ι) : (unit info).mapInfo change = unit (change info) := rfl

@[simp] theorem mapInfo_integer (info : ι) (value : Int64) :
    (integer info value).mapInfo change = integer (change info) value := rfl

@[simp] theorem mapInfo_hex (info : ι) (value : Int64) :
    (hex info value).mapInfo change = hex (change info) value := rfl

@[simp] theorem mapInfo_float (info : ι) (value : Double) :
    (float info value).mapInfo change = float (change info) value := rfl

@[simp] theorem mapInfo_string (info : ι) (value : String) :
    (string info value).mapInfo change = string (change info) value := rfl

@[simp] theorem mapInfo_char (info : ι) (value : Char) :
    (char info value).mapInfo change = char (change info) value := rfl

@[simp] theorem mapInfo_var (info : ι) (name : String) : (var info name).mapInfo change = var (change info) name := rfl

@[simp] theorem mapInfo_tuple (info : ι) (first second : Expr ι) :
    (tuple info first second).mapInfo change = tuple (change info) (first.mapInfo change) (second.mapInfo change) := rfl

@[simp] theorem mapInfo_triple (info : ι) (first second third : Expr ι) :
    (triple info first second third).mapInfo change
      = triple (change info) (first.mapInfo change) (second.mapInfo change) (third.mapInfo change) := rfl

@[simp] theorem mapInfo_list (info : ι) (items : List (Expr ι)) :
    (list info items).mapInfo change = list (change info) (items.map (mapInfo change)) := by
  rw [← mapItemsM_eq]
  rfl

@[simp] theorem mapInfo_lambda (info : ι) (params : List (Pattern ι)) (body : Expr ι) :
    (lambda info params body).mapInfo change
      = lambda (change info) (params.map (Pattern.mapInfo change)) (body.mapInfo change) := by
  rw [← Pattern.mapInfosM_eq]
  rfl

@[simp] theorem mapInfo_record (info : ι) (fields : List (Field ι)) :
    (record info fields).mapInfo change = record (change info) (fields.map (Field.mapInfo change)) := by
  rw [← mapFieldsM_eq]
  rfl

@[simp] theorem mapInfo_accessor (info : ι) (field : String) :
    (accessor info field).mapInfo change = accessor (change info) field := rfl

@[simp] theorem mapInfo_access (info : ι) (subject : Expr ι) (field : String) :
    (access info subject field).mapInfo change = access (change info) (subject.mapInfo change) field := rfl

@[simp] theorem mapInfo_update (info : ι) (name : String) (updates : List (Field ι)) :
    (update info name updates).mapInfo change = update (change info) name (updates.map (Field.mapInfo change)) := by
  rw [← mapFieldsM_eq]
  rfl

@[simp] theorem mapInfo_parenthesized (info : ι) (inner : Expr ι) :
    (parenthesized info inner).mapInfo change = parenthesized (change info) (inner.mapInfo change) := rfl

@[simp] theorem mapInfo_application (info : ι) (function : Expr ι) (args : List (Expr ι)) :
    (application info function args).mapInfo change
      = application (change info) (function.mapInfo change) (args.map (mapInfo change)) := by
  rw [← mapItemsM_eq]
  rfl

@[simp] theorem mapInfo_operation (info : ι) (op : Operator) (left right : Expr ι) :
    (operation info op left right).mapInfo change
      = operation (change info) op (left.mapInfo change) (right.mapInfo change) := rfl

@[simp] theorem mapInfo_operator (info : ι) (op : Operator) :
    (operator info op).mapInfo change = operator (change info) op := rfl

@[simp] theorem mapInfo_negate (info : ι) (inner : Expr ι) :
    (negate info inner).mapInfo change = negate (change info) (inner.mapInfo change) := rfl

@[simp] theorem mapInfo_conditional (info : ι) (condition thenBranch elseBranch : Expr ι) :
    (conditional info condition thenBranch elseBranch).mapInfo change = conditional (change info)
      (condition.mapInfo change) (thenBranch.mapInfo change) (elseBranch.mapInfo change) := rfl

@[simp] theorem mapInfo_letIn (info : ι) (bindings : List (Binding ι)) (body : Expr ι) :
    (letIn info bindings body).mapInfo change
      = letIn (change info) (bindings.map (Binding.mapInfo change)) (body.mapInfo change) := by
  rw [← mapBindingsM_eq]
  rfl

@[simp] theorem mapInfo_caseOf (info : ι) (subject : Expr ι) (branches : List (Branch ι)) :
    (caseOf info subject branches).mapInfo change
      = caseOf (change info) (subject.mapInfo change) (branches.map (Branch.mapInfo change)) := by
  rw [← mapBranchesM_eq]
  rfl

@[simp] theorem mapInfo_glsl (info : ι) (source : String) :
    (glsl info source).mapInfo change = glsl (change info) source := rfl

@[simp] theorem info_mapInfo (expr : Expr ι) : (expr.mapInfo change).info = change expr.info := by
  cases expr
  case list => rw [mapInfo_list]; rfl
  case lambda => rw [mapInfo_lambda]; rfl
  case record => rw [mapInfo_record]; rfl
  case update => rw [mapInfo_update]; rfl
  case application => rw [mapInfo_application]; rfl
  case letIn => rw [mapInfo_letIn]; rfl
  case caseOf => rw [mapInfo_caseOf]; rfl
  all_goals rfl

mutual

@[simp] theorem infos_mapInfo (expr : Expr ι) : (expr.mapInfo change).infos = expr.infos.map change := by
  cases expr
  case tuple info first second => simp [infos, infos_mapInfo first, infos_mapInfo second]
  case triple info first second third =>
    simp [infos, infos_mapInfo first, infos_mapInfo second, infos_mapInfo third]
  case list info items => simp [infos, itemInfos_mapInfo items]
  case lambda info params body => simp [infos, Pattern.infosOf_mapInfo, infos_mapInfo body]
  case record info fields => simp [infos, fieldInfos_mapInfo fields]
  case access info subject field => simp [infos, infos_mapInfo subject]
  case update info name updates => simp [infos, fieldInfos_mapInfo updates]
  case parenthesized info inner => simp [infos, infos_mapInfo inner]
  case application info function args => simp [infos, infos_mapInfo function, itemInfos_mapInfo args]
  case operation info op left right => simp [infos, infos_mapInfo left, infos_mapInfo right]
  case negate info inner => simp [infos, infos_mapInfo inner]
  case conditional info condition thenBranch elseBranch =>
    simp [infos, infos_mapInfo condition, infos_mapInfo thenBranch, infos_mapInfo elseBranch]
  case letIn info bindings body => simp [infos, bindingInfos_mapInfo bindings, infos_mapInfo body]
  case caseOf info subject branches => simp [infos, infos_mapInfo subject, branchInfos_mapInfo branches]
  all_goals rfl

theorem itemInfos_mapInfo (items : List (Expr ι)) :
    itemInfos (items.map (mapInfo change)) = (itemInfos items).map change := by
  match items with
  | [] => rfl
  | item :: rest => simp [itemInfos, infos_mapInfo item, itemInfos_mapInfo rest]

theorem fieldInfos_mapInfo (fields : List (Field ι)) :
    fieldInfos (fields.map (Field.mapInfo change)) = (fieldInfos fields).map change := by
  match fields with
  | [] => rfl
  | .mk name value :: rest => simp [fieldInfos, Field.mapInfo, infos_mapInfo value, fieldInfos_mapInfo rest]

theorem branchInfos_mapInfo (branches : List (Branch ι)) :
    branchInfos (branches.map (Branch.mapInfo change)) = (branchInfos branches).map change := by
  match branches with
  | [] => rfl
  | .mk pattern body :: rest => simp [branchInfos, Branch.mapInfo, infos_mapInfo body, branchInfos_mapInfo rest]

theorem bindingInfos_mapInfo (bindings : List (Binding ι)) :
    bindingInfos (bindings.map (Binding.mapInfo change)) = (bindingInfos bindings).map change := by
  match bindings with
  | [] => rfl
  | .function name params body :: rest =>
    simp [bindingInfos, Binding.mapInfo, Pattern.infosOf_mapInfo, infos_mapInfo body, bindingInfos_mapInfo rest]
  | .destructuring pattern body :: rest =>
    simp [bindingInfos, Binding.mapInfo, infos_mapInfo body, bindingInfos_mapInfo rest]

end

mutual

/-- Only what the function does to the information on the tree matters. -/
theorem mapInfo_congr {change other : ι → κ} (expr : Expr ι)
    (same : ∀ info ∈ expr.infos, change info = other info) : expr.mapInfo change = expr.mapInfo other := by
  cases expr
  all_goals simp only [infos, List.forall_mem_append, List.forall_mem_singleton] at same
  case tuple info first second =>
    simp [mapInfo_congr first same.1, mapInfo_congr second same.2.1, same.2.2]
  case triple info first second third =>
    simp [mapInfo_congr first same.1, mapInfo_congr second same.2.1, mapInfo_congr third same.2.2.1, same.2.2.2]
  case list info items => simp [mapItems_congr items same.1, same.2]
  case lambda info params body =>
    simp [Pattern.mapInfos_congr params same.1, mapInfo_congr body same.2.1, same.2.2]
  case record info fields => simp [mapFields_congr fields same.1, same.2]
  case access info subject field => simp [mapInfo_congr subject same.1, same.2]
  case update info name updates => simp [mapFields_congr updates same.1, same.2]
  case parenthesized info inner => simp [mapInfo_congr inner same.1, same.2]
  case application info function args =>
    simp [mapInfo_congr function same.1, mapItems_congr args same.2.1, same.2.2]
  case operation info op left right => simp [mapInfo_congr left same.1, mapInfo_congr right same.2.1, same.2.2]
  case negate info inner => simp [mapInfo_congr inner same.1, same.2]
  case conditional info condition thenBranch elseBranch =>
    simp [mapInfo_congr condition same.1, mapInfo_congr thenBranch same.2.1, mapInfo_congr elseBranch same.2.2.1,
      same.2.2.2]
  case letIn info bindings body =>
    simp [mapBindings_congr bindings same.1, mapInfo_congr body same.2.1, same.2.2]
  case caseOf info subject branches =>
    simp [mapInfo_congr subject same.1, mapBranches_congr branches same.2.1, same.2.2]
  all_goals simp [same]

/-- Functions that agree on the information of expressions change them alike. -/
theorem mapItems_congr {change other : ι → κ} (items : List (Expr ι))
    (same : ∀ info ∈ itemInfos items, change info = other info) :
    items.map (mapInfo change) = items.map (mapInfo other) := by
  match items with
  | [] => rfl
  | item :: rest =>
    simp only [itemInfos, List.forall_mem_append] at same
    rw [List.map_cons, List.map_cons, mapInfo_congr item same.1, mapItems_congr rest same.2]

theorem mapFields_congr {change other : ι → κ} (fields : List (Field ι))
    (same : ∀ info ∈ fieldInfos fields, change info = other info) :
    fields.map (Field.mapInfo change) = fields.map (Field.mapInfo other) := by
  match fields with
  | [] => rfl
  | .mk name value :: rest =>
    simp only [fieldInfos, List.forall_mem_append] at same
    rw [List.map_cons, List.map_cons, Field.mapInfo, Field.mapInfo, mapInfo_congr value same.1,
      mapFields_congr rest same.2]

theorem mapBranches_congr {change other : ι → κ} (branches : List (Branch ι))
    (same : ∀ info ∈ branchInfos branches, change info = other info) :
    branches.map (Branch.mapInfo change) = branches.map (Branch.mapInfo other) := by
  match branches with
  | [] => rfl
  | .mk pattern body :: rest =>
    simp only [branchInfos, List.forall_mem_append] at same
    rw [List.map_cons, List.map_cons, Branch.mapInfo, Branch.mapInfo, pattern.mapInfo_congr same.1,
      mapInfo_congr body same.2.1, mapBranches_congr rest same.2.2]

theorem mapBindings_congr {change other : ι → κ} (bindings : List (Binding ι))
    (same : ∀ info ∈ bindingInfos bindings, change info = other info) :
    bindings.map (Binding.mapInfo change) = bindings.map (Binding.mapInfo other) := by
  match bindings with
  | [] => rfl
  | .function name params body :: rest =>
    simp only [bindingInfos, List.forall_mem_append] at same
    rw [List.map_cons, List.map_cons, Binding.mapInfo, Binding.mapInfo, Pattern.mapInfos_congr params same.1,
      mapInfo_congr body same.2.1, mapBindings_congr rest same.2.2]
  | .destructuring pattern body :: rest =>
    simp only [bindingInfos, List.forall_mem_append] at same
    rw [List.map_cons, List.map_cons, Binding.mapInfo, Binding.mapInfo, pattern.mapInfo_congr same.1,
      mapInfo_congr body same.2.1, mapBindings_congr rest same.2.2]

end

mutual

/-- Replacing the information twice is replacing it once. -/
theorem mapInfo_mapInfo {μ : Type} (next : κ → μ) (expr : Expr ι) :
    (expr.mapInfo change).mapInfo next = expr.mapInfo fun info => next (change info) := by
  cases expr
  case tuple info first second => simp [mapInfo_mapInfo next first, mapInfo_mapInfo next second]
  case triple info first second third =>
    simp [mapInfo_mapInfo next first, mapInfo_mapInfo next second, mapInfo_mapInfo next third]
  case list info items => rw [mapInfo_list, mapInfo_list, mapInfo_list, mapItems_mapItems next items]
  case lambda info params body =>
    rw [mapInfo_lambda, mapInfo_lambda, mapInfo_lambda, Pattern.mapInfos_mapInfos, mapInfo_mapInfo next body]
  case record info fields => rw [mapInfo_record, mapInfo_record, mapInfo_record, mapFields_mapFields next fields]
  case access info subject field => simp [mapInfo_mapInfo next subject]
  case update info name updates => rw [mapInfo_update, mapInfo_update, mapInfo_update, mapFields_mapFields next updates]
  case parenthesized info inner => simp [mapInfo_mapInfo next inner]
  case application info function args =>
    rw [mapInfo_application, mapInfo_application, mapInfo_application, mapInfo_mapInfo next function,
      mapItems_mapItems next args]
  case operation info op left right => simp [mapInfo_mapInfo next left, mapInfo_mapInfo next right]
  case negate info inner => simp [mapInfo_mapInfo next inner]
  case conditional info condition thenBranch elseBranch =>
    simp [mapInfo_mapInfo next condition, mapInfo_mapInfo next thenBranch, mapInfo_mapInfo next elseBranch]
  case letIn info bindings body =>
    rw [mapInfo_letIn, mapInfo_letIn, mapInfo_letIn, mapBindings_mapBindings next bindings, mapInfo_mapInfo next body]
  case caseOf info subject branches =>
    rw [mapInfo_caseOf, mapInfo_caseOf, mapInfo_caseOf, mapInfo_mapInfo next subject,
      mapBranches_mapBranches next branches]
  all_goals rfl

/-- Two passes over a list of expressions are one. -/
theorem mapItems_mapItems {μ : Type} (next : κ → μ) (items : List (Expr ι)) :
    (items.map (mapInfo change)).map (mapInfo next) = items.map (mapInfo fun info => next (change info)) := by
  match items with
  | [] => rfl
  | item :: rest =>
    rw [List.map_cons, List.map_cons, List.map_cons, mapInfo_mapInfo next item, mapItems_mapItems next rest]

theorem mapFields_mapFields {μ : Type} (next : κ → μ) (fields : List (Field ι)) :
    (fields.map (Field.mapInfo change)).map (Field.mapInfo next)
      = fields.map (Field.mapInfo fun info => next (change info)) := by
  match fields with
  | [] => rfl
  | .mk name value :: rest =>
    rw [List.map_cons, List.map_cons, List.map_cons, mapFields_mapFields next rest, Field.mapInfo, Field.mapInfo,
      Field.mapInfo, mapInfo_mapInfo next value]

theorem mapBranches_mapBranches {μ : Type} (next : κ → μ) (branches : List (Branch ι)) :
    (branches.map (Branch.mapInfo change)).map (Branch.mapInfo next)
      = branches.map (Branch.mapInfo fun info => next (change info)) := by
  match branches with
  | [] => rfl
  | .mk pattern body :: rest =>
    rw [List.map_cons, List.map_cons, List.map_cons, mapBranches_mapBranches next rest, Branch.mapInfo, Branch.mapInfo,
      Branch.mapInfo, pattern.mapInfo_mapInfo, mapInfo_mapInfo next body]

theorem mapBindings_mapBindings {μ : Type} (next : κ → μ) (bindings : List (Binding ι)) :
    (bindings.map (Binding.mapInfo change)).map (Binding.mapInfo next)
      = bindings.map (Binding.mapInfo fun info => next (change info)) := by
  match bindings with
  | [] => rfl
  | .function name params body :: rest =>
    rw [List.map_cons, List.map_cons, List.map_cons, mapBindings_mapBindings next rest, Binding.mapInfo,
      Binding.mapInfo, Binding.mapInfo, Pattern.mapInfos_mapInfos, mapInfo_mapInfo next body]
  | .destructuring pattern body :: rest =>
    rw [List.map_cons, List.map_cons, List.map_cons, mapBindings_mapBindings next rest, Binding.mapInfo,
      Binding.mapInfo, Binding.mapInfo, pattern.mapInfo_mapInfo, mapInfo_mapInfo next body]

end

end Expr

end RowInference
