import Mathlib.Data.List.Chain
import Mathlib.Data.List.Nodup
import Mathlib.Logic.Relation
import RowInference.Typing.ModuleGraph

/-! # The order of modules

A walk along the imports puts every module once and behind all modules it imports. The modules whose imports are being
visited are not in the order yet, and a visit to one of them is refused, so none of them is put there twice. A refusal
shows that there is no order: it names modules that import each other in a circle, or an import of a module that is not
there.
-/

namespace RowInference.ModuleMap

open Relation (TransGen)

variable {ι : Type} {modules : ModuleMap ι} {path order later : List String} {key target : String} {module : Module ι}

/-- Every module in the order stands there once, behind those it imports. -/
structure Ordered (modules : ModuleMap ι) (order : List String) : Prop where
  nodup : order.Nodup
  present : ∀ key ∈ order, modules.contains key = true
  imports : ∀ {before key after module}, order = before ++ key :: after → modules.get? key = some module →
    ∀ entry ∈ module.imports, entry.target ∈ before

theorem ordered_nil (modules : ModuleMap ι) : modules.Ordered [] where
  nodup := .nil
  present _ member := by cases member
  imports split := by simp at split

/-- A module can be put behind an order that has all it imports. -/
theorem Ordered.snoc (ordered : modules.Ordered order) (found : modules.get? key = some module) (new : key ∉ order)
    (imports : ∀ entry ∈ module.imports, entry.target ∈ order) : modules.Ordered (order ++ [key]) where
  nodup := ordered.nodup.append (List.nodup_singleton key) (List.disjoint_singleton.mpr new)
  present other member := by
    rcases List.mem_append.mp member with old | isKey
    · exact ordered.present other old
    · rw [List.mem_singleton.mp isKey, contains, found, Option.isSome_some]
  imports {before other after module'} split found' := by
    rcases List.eq_nil_or_concat after with rfl | ⟨after, last, rfl⟩
    · obtain ⟨rfl, same⟩ := List.append_inj' split rfl
      obtain rfl := List.singleton_inj.mp same
      obtain rfl := Option.some.inj (found.symm.trans found')
      exact imports
    · have split : order ++ [key] = (before ++ other :: after) ++ [last] := by simpa using split
      exact ordered.imports (List.append_inj' split rfl).1 found'

theorem Ordered.congr {others : ModuleMap ι} (ordered : modules.Ordered order)
    (same : ∀ key, others.get? key = modules.get? key) : others.Ordered order where
  nodup := ordered.nodup
  present key member := by
    rw [contains, same]
    exact ordered.present key member
  imports split found := ordered.imports split (same _ ▸ found)

theorem contains_of_mem_keys (member : key ∈ modules.keys) : modules.contains key = true := by
  induction modules with
  | nil => cases member
  | cons entry rest ih =>
    rw [contains, get?, List.lookup_cons]
    split
    · rfl
    · next other =>
      refine ih ((List.mem_cons.mp member).resolve_left fun same => ?_)
      rw [same, beq_self_eq_true] at other
      cases other

theorem mem_keys_of_contains (contained : modules.contains key = true) : key ∈ modules.keys := by
  obtain ⟨module, found⟩ := Option.isSome_iff_exists.mp contained
  exact mem_keys_of_get? found

/-! ## Refusals -/

/-- The module under the first key imports the second one. -/
def Imports (modules : ModuleMap ι) (key target : String) : Prop :=
  ∃ module, modules.get? key = some module ∧ ∃ entry ∈ module.imports, entry.target = target

theorem Imports.mem_keys (imports : modules.Imports key target) : key ∈ modules.keys := by
  obtain ⟨module, found, _⟩ := imports
  exact mem_keys_of_get? found

/-- What a refusal points out: modules each of which imports the next, all the way round, or an import of a module that
is not there. -/
def Refutes (modules : ModuleMap ι) : InputError → Prop
  | .importCycle cycle => 2 ≤ cycle.length ∧ cycle.head? = cycle.getLast? ∧ cycle.IsChain modules.Imports
  | .unknownImport key target => modules.Imports key target ∧ target ∉ modules.keys
  | _ => False

/-- A path can be continued by an import of its last module. -/
theorem isChain_snoc (chain : path.IsChain modules.Imports) (last : path.getLast? = some key)
    (imports : modules.Imports key target) : (path ++ [target]).IsChain modules.Imports := by
  refine List.isChain_append.mpr ⟨chain, List.isChain_singleton target, ?_⟩
  intro before isLast next isNext
  rw [last] at isLast
  cases isLast
  cases isNext
  exact imports

/-- The part of the path from where the key stands on it is a way from the key back to itself. -/
theorem refutes_importCycle (chain : (path ++ [key]).IsChain modules.Imports) (onPath : key ∈ path) :
    modules.Refutes (.importCycle (path.dropWhile (fun other => other != key) ++ [key])) := by
  obtain ⟨before, after, rfl, new⟩ := List.eq_append_cons_of_mem onPath
  have fromKey : (before ++ key :: after).dropWhile (fun other => other != key) = key :: after := by
    rw [List.dropWhile_append_of_pos]
    · simp
    · intro other member
      simpa using fun same : other = key => new (same ▸ member)
  rw [fromKey]
  refine ⟨by simp, by rw [List.getLast?_concat]; rfl, ?_⟩
  rw [List.append_assoc] at chain
  exact chain.right_of_append

/-! ## Visits -/

/-- What a visit adds to an order: nothing that is being visited already. -/
structure Grows (modules : ModuleMap ι) (path order later : List String) : Prop where
  ordered : modules.Ordered later
  keeps : order ⊆ later
  avoids : ∀ key ∈ path, key ∈ later → key ∈ order

theorem Ordered.grows (ordered : modules.Ordered order) (path : List String) : modules.Grows path order order :=
  ⟨ordered, fun _ member => member, fun _ _ member => member⟩

/-- What one visit adds, and then another, is what both add. -/
theorem Grows.trans {last : List String} (first : modules.Grows path order later)
    (second : modules.Grows path later last) : modules.Grows path order last :=
  ⟨second.ordered, fun _ member => second.keeps (first.keeps member),
    fun key onPath member => first.avoids key onPath (second.avoids key onPath member)⟩

/-- A module is put behind what its imports add. -/
theorem Grows.push (grows : modules.Grows (path ++ [key]) order later) (found : modules.get? key = some module)
    (new : key ∉ order) (offPath : key ∉ path) (imports : ∀ entry ∈ module.imports, entry.target ∈ later) :
    modules.Grows path order (later ++ [key]) where
  ordered := grows.ordered.snoc found (fun member => new (grows.avoids key (by simp) member)) imports
  keeps _ member := List.mem_append_left _ (grows.keeps member)
  avoids other onPath member := by
    rcases List.mem_append.mp member with old | isKey
    · exact grows.avoids other (List.mem_append_left _ onPath) old
    · rw [List.mem_singleton.mp isKey] at onPath
      exact absurd onPath offPath

/-- What a visit comes to: an order with the wanted keys in it, or a refusal for a good reason. -/
def Outcome (modules : ModuleMap ι) (path order wanted : List String) : Except InputError (List String) → Prop
  | .ok later => modules.Grows path order later ∧ wanted ⊆ later
  | .error error => modules.Refutes error

/-- A visit and what comes of the next ones. -/
theorem Outcome.cons {wanted : List String} {result : Except InputError (List String)}
    (first : modules.Outcome path order [key] (.ok later)) (rest : modules.Outcome path later wanted result) :
    modules.Outcome path order (key :: wanted) result := by
  cases result with
  | error error => exact rest
  | ok last =>
    obtain ⟨grows, visited⟩ := rest
    exact ⟨first.1.trans grows, List.cons_subset.mpr ⟨grows.keeps (first.2 (List.mem_singleton_self key)), visited⟩⟩

/-- A module that is neither in the order nor being visited goes behind what its imports add. -/
theorem visit_of_get? (new : ¬order.contains key = true) (offPath : ¬path.contains key = true)
    (found : modules.get? key = some module) :
    modules.visit path order key = match modules.visitImports (path ++ [key]) order key module.imports with
      | .ok order => .ok (order ++ [key])
      | .error error => .error error := by
  rw [visit, if_neg new, dif_neg offPath]
  split
  · next missing =>
    rw [found] at missing
    cases missing
  · next module' found' =>
    obtain rfl := Option.some.inj (found.symm.trans found')
    rfl

/-- Induction along the visits: a module is entered, and its imports are visited one after the other as long as none
is refused. -/
theorem visit_induction (modules : ModuleMap ι) {visits : List String → List String → String → Prop}
    {visitsImports : List String → List String → String → List Import → Prop}
    (known : ∀ path order key, order.contains key = true → visits path order key)
    (cycle : ∀ path order key, ¬order.contains key = true → path.contains key = true → visits path order key)
    (missing : ∀ path order key, ¬order.contains key = true → ¬path.contains key = true → modules.get? key = none →
      visits path order key)
    (enter : ∀ path order key module, ¬order.contains key = true → ¬path.contains key = true →
      modules.get? key = some module → visitsImports (path ++ [key]) order key module.imports → visits path order key)
    (nil : ∀ path order key, visitsImports path order key [])
    (unknown : ∀ path order key entry rest, ¬modules.contains entry.target = true →
      visitsImports path order key (entry :: rest))
    (next : ∀ path order key entry rest, modules.contains entry.target = true → visits path order entry.target →
      (∀ later, modules.visit path order entry.target = .ok later → visitsImports path later key rest) →
      visitsImports path order key (entry :: rest)) :
    (∀ path order key, visits path order key) ∧
      ∀ path order key imports, visitsImports path order key imports := by
  apply visit.mutual_induct
  case case1 => exact known
  case case2 => exact cycle
  case case3 => exact missing
  case case4 => exact fun path order key new offPath module found _ _ => enter path order key module new offPath found
  case case5 => exact fun path order key new offPath module found _ _ => enter path order key module new offPath found
  case case6 => exact nil
  case case7 =>
    intro path order key entry rest present mid visited first others
    refine next path order key entry rest present first fun later visited' => ?_
    obtain rfl := Except.ok.inj (visited.symm.trans visited')
    exact others
  case case8 =>
    intro path order key entry rest present error failed first
    refine next path order key entry rest present first fun later visited => ?_
    rw [failed] at visited
    cases visited
  case case9 => exact unknown

/-- Visits keep the order. The modules on the path import one another, the last of them the visited one, so that the
path shows the cycle when it comes back to itself. -/
theorem visits_outcome (modules : ModuleMap ι) :
    (∀ path order key, modules.Ordered order → modules.contains key = true → (path ++ [key]).IsChain modules.Imports →
      modules.Outcome path order [key] (modules.visit path order key)) ∧
    (∀ path order key imports, modules.Ordered order → path.IsChain modules.Imports → path.getLast? = some key →
      (∀ entry ∈ imports, modules.Imports key entry.target) →
      modules.Outcome path order (imports.map Import.target) (modules.visitImports path order key imports)) := by
  -- While the imports are visited the module is the last on the path, so each of them continues the chain.
  apply visit_induction modules
  case known =>
    intro path order key known ordered _ _
    rw [visit, if_pos known]
    exact ⟨ordered.grows path, by simpa using known⟩
  case cycle =>
    intro path order key new cycle _ _ chain
    rw [visit, if_neg new, dif_pos cycle]
    exact refutes_importCycle chain (List.contains_iff_mem.mp cycle)
  case missing =>
    intro path order key new offPath missing _ present _
    rw [contains, missing] at present
    cases present
  case enter =>
    intro path order key module new offPath found ih ordered _ chain
    have inside := ih ordered chain List.getLast?_concat fun entry inImports => ⟨module, found, entry, inImports, rfl⟩
    rw [visit_of_get? new offPath found]
    cases visited : modules.visitImports (path ++ [key]) order key module.imports with
    | error error => rwa [visited] at inside
    | ok later =>
      rw [visited] at inside
      obtain ⟨grows, imported⟩ := inside
      refine ⟨grows.push found ?_ ?_ ?_, by simp⟩
      · rwa [← List.contains_iff_mem]
      · rwa [← List.contains_iff_mem]
      · exact fun entry inImports => imported (List.mem_map_of_mem inImports)
  case nil =>
    intro path order key ordered _ _ _
    rw [visitImports]
    exact ⟨ordered.grows path, by simp⟩
  case unknown =>
    intro path order key entry rest missing _ _ _ imports
    rw [visitImports, if_neg missing]
    exact ⟨(List.forall_mem_cons.mp imports).1, fun member => missing (contains_of_mem_keys member)⟩
  case next =>
    intro path order key entry rest present ih ih' ordered chain last imports
    obtain ⟨here, there⟩ := List.forall_mem_cons.mp imports
    have first := ih ordered present (isChain_snoc chain last here)
    rw [visitImports, if_pos present]
    cases visited : modules.visit path order entry.target with
    | error error => rwa [visited] at first
    | ok later =>
      rw [visited] at first
      exact first.cons (ih' later visited first.1.ordered chain last there)

/-- Visits from first to last come to an order or to a refusal. -/
theorem visitAll_outcome {keys : List String} (ordered : modules.Ordered order)
    (present : ∀ key ∈ keys, modules.contains key = true) :
    modules.Outcome [] order keys (modules.visitAll order keys) := by
  induction keys generalizing order with
  | nil => exact ⟨ordered.grows [], by simp⟩
  | cons key rest ih =>
    obtain ⟨here, there⟩ := List.forall_mem_cons.mp present
    have first := (visits_outcome modules).1 [] order key ordered here (List.isChain_singleton key)
    rw [visitAll]
    cases visited : modules.visit [] order key with
    | error error =>
      rw [visited] at first
      exact first
    | ok mid =>
      rw [visited] at first
      exact first.cons (ih first.1.ordered there)

/-- The dependency order comes to an order of all modules or to a refusal. -/
theorem dependencyOrder_outcome (modules : ModuleMap ι) :
    modules.Outcome [] [] modules.keys modules.dependencyOrder :=
  visitAll_outcome (ordered_nil modules) fun _ => contains_of_mem_keys

/-- The dependency order has every module once, behind those it imports. -/
theorem dependencyOrder_ordered (success : modules.dependencyOrder = .ok order) :
    modules.Ordered order ∧ ∀ key ∈ modules.keys, key ∈ order := by
  have outcome := dependencyOrder_outcome modules
  rw [success] at outcome
  exact ⟨outcome.1.ordered, fun key member => outcome.2 member⟩

/-- Every failure has a good reason. -/
theorem refutes_of_dependencyOrder {error : InputError} (failure : modules.dependencyOrder = .error error) :
    modules.Refutes error := by
  have outcome := dependencyOrder_outcome modules
  rwa [failure] at outcome

/-- Exactly the keys stand in the dependency order. -/
theorem mem_dependencyOrder (success : modules.dependencyOrder = .ok order) : key ∈ order ↔ key ∈ modules.keys := by
  obtain ⟨ordered, complete⟩ := dependencyOrder_ordered success
  exact ⟨fun member => mem_keys_of_contains (ordered.present key member), complete key⟩

/-! ## The graph of imports -/

theorem Ordered.imports_mem (ordered : modules.Ordered order) (member : key ∈ order)
    (imports : modules.Imports key target) : target ∈ order := by
  obtain ⟨module, found, entry, inImports, rfl⟩ := imports
  obtain ⟨before, rest, rfl⟩ := List.append_of_mem member
  exact List.mem_append_left _ (ordered.imports rfl found entry inImports)

/-- In an order an imported module stands before the one that imports it. -/
theorem Ordered.idxOf_lt (ordered : modules.Ordered order) (member : key ∈ order)
    (imports : modules.Imports key target) : order.idxOf target < order.idxOf key := by
  obtain ⟨module, found, entry, inImports, rfl⟩ := imports
  obtain ⟨before, after, rfl⟩ := List.append_of_mem member
  have imported := ordered.imports rfl found entry inImports
  have new : key ∉ before := fun old => List.disjoint_of_nodup_append ordered.nodup old (List.mem_cons_self ..)
  rw [List.idxOf_append_of_mem imported, List.idxOf_append_of_notMem new]
  have := List.idxOf_lt_length_iff.mpr imported
  omega

/-- Following the imports leads further and further to the front of an order. -/
theorem Ordered.idxOf_lt_of_transGen (ordered : modules.Ordered order) (member : key ∈ order)
    (chain : TransGen modules.Imports key target) : target ∈ order ∧ order.idxOf target < order.idxOf key := by
  induction chain with
  | single imports => exact ⟨ordered.imports_mem member imports, ordered.idxOf_lt member imports⟩
  | tail _ imports ih =>
    obtain ⟨inOrder, less⟩ := ih
    exact ⟨ordered.imports_mem inOrder imports, (ordered.idxOf_lt inOrder imports).trans less⟩

/-- All imported modules are there, and no module imports itself, directly or through others. -/
structure Orderable (modules : ModuleMap ι) : Prop where
  closed : ∀ ⦃key target⦄, modules.Imports key target → target ∈ modules.keys
  acyclic : ∀ key, ¬TransGen modules.Imports key key

/-- Modules that have an order can be ordered: an import leads backwards, so no chain of imports is a circle. -/
theorem Ordered.orderable (ordered : modules.Ordered order) (complete : ∀ key ∈ modules.keys, key ∈ order) :
    modules.Orderable where
  closed key target imports :=
    mem_keys_of_contains (ordered.present target (ordered.imports_mem (complete key imports.mem_keys) imports))
  acyclic key cycle := by
    obtain ⟨next, imports, _⟩ := TransGen.head'_iff.mp cycle
    exact Nat.lt_irrefl _ (ordered.idxOf_lt_of_transGen (complete key imports.mem_keys) cycle).2

/-- What a refusal points out rules out every order. -/
theorem Refutes.not_orderable {error : InputError} (refutes : modules.Refutes error) : ¬modules.Orderable := by
  intro orderable
  cases error with
  | importCycle cycle =>
    obtain ⟨long, closes, chain⟩ := refutes
    match cycle, long with
    | first :: second :: rest, _ =>
      obtain ⟨imports, chain⟩ := List.isChain_cons_cons.mp chain
      have last : (second :: rest).getLast (List.cons_ne_nil _ _) = first := by
        simpa [List.getLast?_eq_some_getLast, eq_comm] using closes
      exact orderable.acyclic first (.head' imports (List.relationReflTransGen_of_exists_isChain_cons rest chain last))
  | unknownImport key target => exact refutes.2 (orderable.closed refutes.1)
  | moduleNotFound | declarationNotFound | duplicateDeclaration => exact refutes

/-- There is an order just if the modules can be ordered at all. -/
theorem exists_dependencyOrder_iff : (∃ order, modules.dependencyOrder = .ok order) ↔ modules.Orderable := by
  constructor
  · rintro ⟨order, success⟩
    obtain ⟨ordered, complete⟩ := dependencyOrder_ordered success
    exact ordered.orderable complete
  · intro orderable
    cases result : modules.dependencyOrder with
    | ok order => exact ⟨order, rfl⟩
    | error error => exact absurd orderable (refutes_of_dependencyOrder result).not_orderable

/-- An order in which every import leads backwards is a dependency order. -/
theorem ordered_of_idxOf_lt (nodup : order.Nodup) (present : ∀ key ∈ order, modules.contains key = true)
    (behind : ∀ key target, modules.Imports key target → order.idxOf target < order.idxOf key) :
    modules.Ordered order where
  nodup := nodup
  present := present
  imports {before key after module} split found entry inImports := by
    have less := behind key entry.target ⟨module, found, entry, inImports, rfl⟩
    have new : key ∉ before := fun old => List.disjoint_of_nodup_append (split ▸ nodup) old (List.mem_cons_self ..)
    by_contra missing
    rw [split, List.idxOf_append_of_notMem new, List.idxOf_append_of_notMem missing, List.idxOf_cons_self] at less
    omega

/-- Imports that have been visited add nothing. -/
theorem visitImports_of_mem {imports : List Import} (present : ∀ key ∈ order, modules.contains key = true)
    (visited : ∀ entry ∈ imports, entry.target ∈ order) : modules.visitImports path order key imports = .ok order := by
  induction imports with
  | nil => rw [visitImports]
  | cons entry rest ih =>
    obtain ⟨here, there⟩ := List.forall_mem_cons.mp visited
    have known : modules.visit path order entry.target = .ok order := by
      rw [visit, if_pos (List.contains_iff_mem.mpr here)]
    rw [visitImports, if_pos (present _ here), known]
    exact ih there

/-- Keys that are in a good order already stay in it. -/
theorem Ordered.visitAll_eq {rest : List String} (ordered : modules.Ordered (order ++ rest)) :
    modules.visitAll order rest = .ok (order ++ rest) := by
  induction rest generalizing order with
  | nil => rw [visitAll, List.append_nil]
  | cons key rest ih =>
    have new : key ∉ order := fun old => List.disjoint_of_nodup_append ordered.nodup old (List.mem_cons_self ..)
    obtain ⟨module, found⟩ := Option.isSome_iff_exists.mp (ordered.present key (by simp))
    have imports : modules.visitImports ([] ++ [key]) order key module.imports = .ok order :=
      visitImports_of_mem (fun other member => ordered.present other (List.mem_append_left _ member))
        (ordered.imports rfl found)
    have visited : modules.visit [] order key = .ok (order ++ [key]) := by
      rw [visit_of_get? (by simpa using new) (by simp) found, imports]
    rw [List.append_cons] at ordered ⊢
    rw [visitAll, visited]
    exact ih ordered

/-- The dependency order in all outcomes. There is one just if every imported module is there and the imports have no
cycle. It has every key once, behind the modules imported under it, and is the given order where that will do. A refusal
names a cycle or an import of a module that is not there. -/
theorem dependencyOrder_correct (nodup : modules.keys.Nodup) :
    ((∃ order, modules.dependencyOrder = .ok order) ↔ modules.Orderable) ∧
      (∀ order, modules.dependencyOrder = .ok order → order.Perm modules.keys ∧
        ∀ key target, modules.Imports key target → order.idxOf target < order.idxOf key) ∧
      ((∀ key target, modules.Imports key target → modules.keys.idxOf target < modules.keys.idxOf key) →
        modules.dependencyOrder = .ok modules.keys) ∧
      ∀ error, modules.dependencyOrder = .error error → modules.Refutes error := by
  refine ⟨exists_dependencyOrder_iff, ?_, ?_, fun error => refutes_of_dependencyOrder⟩
  · intro order success
    obtain ⟨ordered, complete⟩ := dependencyOrder_ordered success
    constructor
    · exact (List.perm_ext_iff_of_nodup ordered.nodup nodup).mpr fun key => mem_dependencyOrder success
    · intro key target imports
      exact ordered.idxOf_lt (complete key imports.mem_keys) imports
  · intro behind
    exact (ordered_of_idxOf_lt nodup (fun key member => contains_of_mem_keys member) behind).visitAll_eq

/-- Two ways from the first module to the last, `Top` importing one of the modules twice. -/
def diamond : ModuleMap Unit :=
  [("Top", { name := "Top", imports := [{ target := "Left" }, { target := "Right" }, { target := "Left" }] }),
    ("Right", { name := "Right", imports := [{ target := "Base" }] }),
    ("Base", { name := "Base" }),
    ("Left", { name := "Left", imports := [{ target := "Base" }] })]

/-- The same modules, with an import from the last back to one before it. -/
def knotted : ModuleMap Unit := diamond.insert "Base" { name := "Base", imports := [{ target := "Right" }] }

theorem dependencyOrder_correct_diamond :
    (diamond.dependencyOrder = .ok ["Base", "Left", "Right", "Top"] ∧ diamond.Orderable ∧
        ["Base", "Left", "Right", "Top"].Perm ["Top", "Right", "Base", "Left"]) ∧
      knotted.dependencyOrder = .error (.importCycle ["Base", "Right", "Base"]) ∧
      ["Base", "Right", "Base"].IsChain knotted.Imports ∧ ¬knotted.Orderable := by
  have success : diamond.dependencyOrder = .ok ["Base", "Left", "Right", "Top"] := by
    simp [diamond, dependencyOrder, keys, visitAll, visit, visitImports, contains, get?, List.lookup_cons]
  have failure : knotted.dependencyOrder = .error (.importCycle ["Base", "Right", "Base"]) := by
    simp [knotted, diamond, insert, dependencyOrder, keys, visitAll, visit, visitImports, contains, get?,
      List.lookup_cons]
  obtain ⟨exists_iff, inOrder, _⟩ := dependencyOrder_correct (show diamond.keys.Nodup by decide)
  obtain ⟨_, _, _, refused⟩ := dependencyOrder_correct (show knotted.keys.Nodup by decide)
  have refutes := refused _ failure
  exact ⟨⟨success, exists_iff.mp ⟨_, success⟩, (inOrder _ success).1⟩, failure, refutes.2.2, refutes.not_orderable⟩

end RowInference.ModuleMap
