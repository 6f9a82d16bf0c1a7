import RowInference.Number.Double

/-! # Patterns

Every node of a syntax tree carries a piece of information of type `ι`: its place in the source before inference,
and its place and type afterwards. Literals are carried along unchanged.
-/

namespace RowInference

/-- A pattern whose nodes carry an `ι`. -/
inductive Pattern (ι : Type) where
  | unit (info : ι)
  | wildcard (info : ι)
  /-- A name, bound to the whole value. -/
  | var (info : ι) (name : String)
  | integer (info : ι) (value : Int64)
  | hex (info : ι) (value : Int64)
  | float (info : ι) (value : Double)
  | string (info : ι) (value : String)
  | char (info : ι) (value : Char)
  | tuple (info : ι) (first second : Pattern ι)
  | triple (info : ι) (first second third : Pattern ι)
  | list (info : ι) (items : List (Pattern ι))
  | cons (info : ι) (head tail : Pattern ι)
  /-- Fields of a record, each bound to a name of its own. -/
  | record (info : ι) (fields : List String)
  /-- A pattern with a name for the whole value. -/
  | aliased (info : ι) (inner : Pattern ι) (name : String)
  | parenthesized (info : ι) (inner : Pattern ι)

namespace Pattern

variable {ι κ : Type} {m : Type → Type} [Monad m]

/-- The information on the outermost node. -/
def info : Pattern ι → ι
  | unit info | wildcard info | var info _ | integer info _ | hex info _ | float info _ | string info _
  | char info _ | tuple info _ _ | triple info _ _ _ | list info _ | cons info _ _ | record info _
  | aliased info _ _ | parenthesized info _ => info

mutual

/-- Replace the information on all nodes: children from left to right, then the node itself. -/
def mapInfoM (visit : ι → m κ) : Pattern ι → m (Pattern κ)
  | .unit info => return .unit (← visit info)
  | .wildcard info => return .wildcard (← visit info)
  | .var info name => return .var (← visit info) name
  | .integer info value => return .integer (← visit info) value
  | .hex info value => return .hex (← visit info) value
  | .float info value => return .float (← visit info) value
  | .string info value => return .string (← visit info) value
  | .char info value => return .char (← visit info) value
  | .tuple info first second => do
    let first ← first.mapInfoM visit
    let second ← second.mapInfoM visit
    return .tuple (← visit info) first second
  | .triple info first second third => do
    let first ← first.mapInfoM visit
    let second ← second.mapInfoM visit
    let third ← third.mapInfoM visit
    return .triple (← visit info) first second third
  | .list info items => do
    let items ← mapInfosM visit items
    return .list (← visit info) items
  | .cons info head tail => do
    let head ← head.mapInfoM visit
    let tail ← tail.mapInfoM visit
    return .cons (← visit info) head tail
  | .record info fields => return .record (← visit info) fields
  | .aliased info inner name => do
    let inner ← inner.mapInfoM visit
    return .aliased (← visit info) inner name
  | .parenthesized info inner => do
    let inner ← inner.mapInfoM visit
    return .parenthesized (← visit info) inner

def mapInfosM (visit : ι → m κ) : List (Pattern ι) → m (List (Pattern κ))
  | [] => return []
  | pattern :: rest => do
    let pattern ← pattern.mapInfoM visit
    let rest ← mapInfosM visit rest
    return pattern :: rest

end

def mapInfo (change : ι → κ) (pattern : Pattern ι) : Pattern κ :=
  Id.run (pattern.mapInfoM fun info => pure (change info))

mutual

/-- The information on all nodes, children before their parent. -/
def infos : Pattern ι → List ι
  | .tuple info first second => first.infos ++ (second.infos ++ [info])
  | .triple info first second third => first.infos ++ (second.infos ++ (third.infos ++ [info]))
  | .list info items => infosOf items ++ [info]
  | .cons info head tail => head.infos ++ (tail.infos ++ [info])
  | .aliased info inner _ => inner.infos ++ [info]
  | .parenthesized info inner => inner.infos ++ [info]
  | .unit info | .wildcard info | .var info _ | .integer info _ | .hex info _ | .float info _
  | .string info _ | .char info _ | .record info _ => [info]

def infosOf : List (Pattern ι) → List ι
  | [] => []
  | pattern :: rest => pattern.infos ++ infosOf rest

end

end Pattern

end RowInference
