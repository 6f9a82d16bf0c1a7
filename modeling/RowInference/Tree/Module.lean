import RowInference.Tree.Expr

/-! # Declarations and modules -/

namespace RowInference

/-- Which names of an imported module are visible without qualification. -/
inductive Exposing where
  | nothing
  | everything
  | names (names : List String)
deriving DecidableEq, Repr, Inhabited

def Exposing.exposes : Exposing → String → Bool
  | nothing, _ => false
  | everything, _ => true
  | names exposed, name => exposed.contains name

structure Import where
  target : String
  /-- The name to qualify with, if it is not the module's own. -/
  localName : Option String := none
  /-- What is visible without qualification. -/
  exposing : Exposing := .nothing
deriving DecidableEq, Repr, Inhabited

/-- What qualified names of the import start with. -/
def Import.qualifier (entry : Import) : String := entry.localName.getD entry.target

/-- A named value or function of a module. -/
structure Declaration (ι : Type) where
  name : String
  params : List (Pattern ι) := []
  body : Expr ι
  info : ι

structure Module (ι : Type) where
  name : String
  imports : List Import := []
  declarations : List (Declaration ι) := []

variable {ι κ : Type} {m : Type → Type} [Monad m]

namespace Declaration

/-- Replace all information: parameters, body, then the declaration itself. -/
def mapInfoM (visit : ι → m κ) (declaration : Declaration ι) : m (Declaration κ) := do
  let params ← Pattern.mapInfosM visit declaration.params
  let body ← declaration.body.mapInfoM visit
  return ⟨declaration.name, params, body, ← visit declaration.info⟩

/-- The information on all nodes in the order in which `mapInfoM` meets it. -/
def infos (declaration : Declaration ι) : List ι :=
  Pattern.infosOf declaration.params ++ (declaration.body.infos ++ [declaration.info])

end Declaration

namespace Module

def mapDeclarationsM (visit : ι → m κ) : List (Declaration ι) → m (List (Declaration κ))
  | [] => return []
  | declaration :: rest => do
    let declaration ← declaration.mapInfoM visit
    let rest ← mapDeclarationsM visit rest
    return declaration :: rest

def mapInfoM (visit : ι → m κ) (module : Module ι) : m (Module κ) := do
  return ⟨module.name, module.imports, ← mapDeclarationsM visit module.declarations⟩

/-- The information on all nodes in the order in which `mapInfoM` meets it. -/
def infos (module : Module ι) : List ι := module.declarations.flatMap Declaration.infos

def declaration? (module : Module ι) (name : String) : Option (Declaration ι) :=
  module.declarations.find? fun declaration => declaration.name == name

end Module

/-- Modules under their keys, in a given order. -/
abbrev ModuleMap (ι : Type) := List (String × Module ι)

namespace ModuleMap

def get? (modules : ModuleMap ι) (key : String) : Option (Module ι) := List.lookup key modules

def contains (modules : ModuleMap ι) (key : String) : Bool := (get? modules key).isSome

/-- Put a module under a key; a present key keeps its place. -/
def insert (modules : ModuleMap ι) (key : String) (module : Module ι) : ModuleMap ι :=
  match modules with
  | [] => [(key, module)]
  | (other, old) :: rest =>
    if key = other then (key, module) :: rest else (other, old) :: insert rest key module

/-- The modules of a list of entries; a repeated key keeps its first place and takes the last module. -/
def ofList (entries : List (String × Module ι)) : ModuleMap ι :=
  entries.foldl (fun modules entry => insert modules entry.1 entry.2) []

def keys (modules : ModuleMap ι) : List String := modules.map Prod.fst

end ModuleMap

end RowInference
