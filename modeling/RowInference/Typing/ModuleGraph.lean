import RowInference.Typing.State

/-! # Imports between modules

Modules are inferred after the modules they import. The order is found by a walk: the modules are visited as they are
given, and a visit puts a module behind those it imports, which are visited first. So a module comes early if an early
one imports it, before others that have nothing to do with either and were given before it.
-/

namespace RowInference

variable {ι : Type}

namespace ModuleMap

/-- A key under which a module is found is one of the keys. -/
theorem mem_keys_of_get? {modules : ModuleMap ι} {key : String} {module : Module ι}
    (found : modules.get? key = some module) : key ∈ modules.keys := by
  induction modules with
  | nil => cases found
  | cons entry rest ih =>
    obtain ⟨other, old⟩ := entry
    by_cases same : key = other
    · simp [keys, same]
    · have : ModuleMap.get? rest key = some module := by
        simpa [get?, List.lookup_cons, beq_eq_false_iff_ne.2 same] using found
      exact List.mem_cons_of_mem _ (ih this)

/-- How many keys are not on a path. -/
def remaining (modules : ModuleMap ι) (path : List String) : Nat :=
  (modules.keys.filter fun key => !path.contains key).length

/-- A path that gets longer by a new key leaves fewer keys. -/
theorem remaining_push_lt {modules : ModuleMap ι} {path : List String} {key : String}
    (present : key ∈ modules.keys) (new : ¬path.contains key) :
    modules.remaining (path ++ [key]) < modules.remaining path := by
  have split : (modules.keys.filter fun other => !(path ++ [key]).contains other)
      = (modules.keys.filter fun other => !path.contains other).filter fun other => other != key := by
    rw [List.filter_filter]
    apply List.filter_congr
    intro other _
    by_cases old : other ∈ path <;> by_cases same : other = key <;> simp [old, same]
  unfold remaining
  rw [split]
  exact List.length_filter_lt_length_iff_exists.2
    ⟨key, List.mem_filter.2 ⟨present, by simpa using new⟩, by simp⟩

mutual

/-- Visit a module: put what it imports, then itself, behind `order`. The modules on `path` are those whose imports
are being visited, outermost first. -/
def visit (modules : ModuleMap ι) (path order : List String) (key : String) :
    Except InputError (List String) :=
  if order.contains key then .ok order
  else if _new : path.contains key then
    .error (.importCycle (path.dropWhile (fun other => other != key) ++ [key]))
  else
    match _found : modules.get? key with
    | none => .ok order
    | some module =>
      match visitImports modules (path ++ [key]) order key module.imports with
      | .ok order => .ok (order ++ [key])
      | .error error => .error error
termination_by (modules.remaining path, 0)
decreasing_by
  exact Prod.Lex.left _ _ (remaining_push_lt (mem_keys_of_get? _found) _new)

/-- Visit the modules that the module `key` imports. -/
def visitImports (modules : ModuleMap ι) (path order : List String) (key : String) :
    List Import → Except InputError (List String)
  | [] => .ok order
  | entry :: rest =>
    if modules.contains entry.target then
      match visit modules path order entry.target with
      | .ok order => visitImports modules path order key rest
      | .error error => .error error
    else .error (.unknownImport key entry.target)
termination_by imports => (modules.remaining path, imports.length + 1)
decreasing_by
  · exact Prod.Lex.right _ (Nat.succ_pos _)
  · exact Prod.Lex.right _ (Nat.lt_succ_self _)

end

/-- Visit modules from first to last. -/
def visitAll (modules : ModuleMap ι) : List String → List String → Except InputError (List String)
  | order, [] => .ok order
  | order, key :: rest =>
    match visit modules [] order key with
    | .ok order => visitAll modules order rest
    | .error error => .error error

/-- The keys in an order in which every module stands behind those it imports. -/
def dependencyOrder (modules : ModuleMap ι) : Except InputError (List String) :=
  visitAll modules [] modules.keys

end ModuleMap

/-- The first declaration whose name is declared before it, if there is one. -/
def firstRepeated (seen : List String) : List (Declaration ι) → Option (Declaration ι)
  | [] => none
  | declaration :: rest =>
    if seen.contains declaration.name then some declaration
    else firstRepeated (declaration.name :: seen) rest

/-- Refuse a module that declares a name twice. -/
def Module.checkUnique (module : Module Span) : Except InputError Unit :=
  match firstRepeated [] module.declarations with
  | none => .ok ()
  | some declaration => .error (.duplicateDeclaration module.name declaration.name declaration.info)

/-- Make the declarations of an imported module visible: all of them qualified, and those that are exposed also by
their own name. -/
def Environment.addImport (env : Environment) (entry : Import) (module : Module Typed) : Environment :=
  module.declarations.foldl (fun env declaration =>
    let scheme := declaration.info.scheme
    let env := env.add (entry.qualifier ++ "." ++ declaration.name) scheme
    if entry.exposing.exposes declaration.name then env.add declaration.name scheme else env) env

end RowInference
