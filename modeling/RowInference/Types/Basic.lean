import RowInference.Types.Variable

/-! # Types and rows

A type is an atom, a variable, or built from other types. Records carry a *row*: their fields, each
name once and in increasing order of code points. A closed record has exactly the fields of its row;
an extension has at least those, on top of a base that is normally a variable standing for the rest.

Rows keep their order through `Row.insert` and the operations built on it. `Ty.Canonical` says that
every row inside a type is so ordered.
-/

namespace RowInference

mutual

/-- A type, possibly with free variables. -/
inductive Ty where
  | unit
  | bool
  | char
  | string
  | int
  | float
  | var (var : TypeVar)
  | tuple (first second : Ty)
  | triple (first second third : Ty)
  | list (element : Ty)
  /-- A function of one argument; further arguments are functions in `target`. -/
  | function (source target : Ty)
  | record (fields : Row)
  /-- A record with these fields and those of `base`. -/
  | extension (base : Ty) (fields : Row)
deriving DecidableEq, Repr

inductive Row where
  | empty
  | field (name : String) (type : Ty) (rest : Row)
deriving DecidableEq, Repr

end

instance : Inhabited Ty := ⟨.unit⟩

instance : Inhabited Row := ⟨.empty⟩

namespace Row

def toList : Row → List (String × Ty)
  | empty => []
  | field name type rest => (name, type) :: rest.toList

def get? (key : String) : Row → Option Ty
  | empty => none
  | field name type rest => if key = name then some type else rest.get? key

def contains (row : Row) (key : String) : Bool := (row.get? key).isSome

def isEmpty : Row → Bool
  | empty => true
  | field .. => false

/-- Give a field a type, in its place, replacing an earlier type of the field. -/
def insert (key : String) (value : Ty) : Row → Row
  | empty => field key value empty
  | field name type rest =>
    match compare key name with
    | .lt => field key value (field name type rest)
    | .eq => field key value rest
    | .gt => field name type (insert key value rest)

/-- Add all fields of `other`, which win over those already present. -/
def extend (row : Row) : Row → Row
  | empty => row
  | field name type rest => extend (row.insert name type) rest

/-- The row of a list of fields, where later fields win. -/
def ofList (fields : List (String × Ty)) : Row :=
  fields.foldl (fun row entry => row.insert entry.1 entry.2) empty

/-- The fields that `other` lacks. -/
def without : Row → Row → Row
  | empty, _ => empty
  | field name type rest, other =>
    if other.contains name then rest.without other else field name type (rest.without other)

/-- The pairs of types that two rows give to the same field, in field order. -/
def common : Row → Row → List (Ty × Ty)
  | empty, _ => []
  | field name type rest, other =>
    match other.get? name with
    | some partner => (type, partner) :: rest.common other
    | none => rest.common other

end Row

namespace Ty

/-- The type of a function of several arguments. -/
def curried (parameters : List Ty) (result : Ty) : Ty := parameters.foldr function result

/-- The number of arguments a function takes before its result is no function. -/
def arity : Ty → Nat
  | function _ target => 1 + target.arity
  | _ => 0

def var? : Ty → Option TypeVar
  | var v => some v
  | _ => none

/-- Whether the type is one of the six atoms. -/
def isAtom : Ty → Bool
  | unit | bool | char | string | int | float => true
  | _ => false

def isRecord : Ty → Bool
  | record _ | extension .. => true
  | _ => false

/-- Whether the type belongs to a class, judged by its outermost constructor. -/
def satisfies : Constraint → Ty → Bool
  | .number, int | .number, float => true
  | .appendable, string | .appendable, list _ => true
  | _, _ => false

/-- Whether the type is a variable restricted to a class. -/
def isConstrainedBy (constraint : Constraint) : Ty → Bool
  | var v => v.constraint = some constraint
  | _ => false

end Ty

mutual

/-- Every occurrence of a variable, from left to right, a base before its fields. -/
def Ty.occurrences : Ty → List TypeVar
  | .var v => [v]
  | .tuple first second => first.occurrences ++ second.occurrences
  | .triple first second third => first.occurrences ++ (second.occurrences ++ third.occurrences)
  | .list element => element.occurrences
  | .function source target => source.occurrences ++ target.occurrences
  | .record fields => fields.occurrences
  | .extension base fields => base.occurrences ++ fields.occurrences
  | _ => []

def Row.occurrences : Row → List TypeVar
  | .empty => []
  | .field _ type rest => type.occurrences ++ rest.occurrences

end

/-- The free variables in order of first appearance. One identity under two constraints counts as two
variables. -/
def Ty.freeVars (type : Ty) : List TypeVar := type.occurrences.eraseDups

mutual

/-- Whether a variable occurs in the type. -/
def Ty.occurs (id : VarId) : Ty → Bool
  | .var v => v.id = id
  | .tuple first second => first.occurs id || second.occurs id
  | .triple first second third => first.occurs id || second.occurs id || third.occurs id
  | .list element => element.occurs id
  | .function source target => source.occurs id || target.occurs id
  | .record fields => fields.occurs id
  | .extension base fields => base.occurs id || fields.occurs id
  | _ => false

def Row.occurs (id : VarId) : Row → Bool
  | .empty => false
  | .field _ type rest => type.occurs id || rest.occurs id

end

mutual

def Ty.size : Ty → Nat
  | .tuple first second => 1 + first.size + second.size
  | .triple first second third => 1 + first.size + second.size + third.size
  | .list element => 1 + element.size
  | .function source target => 1 + source.size + target.size
  | .record fields => 1 + fields.size
  | .extension base fields => 1 + base.size + fields.size
  | _ => 1

def Row.size : Row → Nat
  | .empty => 0
  | .field _ type rest => 1 + type.size + rest.size

end

mutual

/-- Every row inside the type lists each field once, in increasing order. -/
def Ty.Canonical : Ty → Prop
  | .tuple first second => first.Canonical ∧ second.Canonical
  | .triple first second third => first.Canonical ∧ second.Canonical ∧ third.Canonical
  | .list element => element.Canonical
  | .function source target => source.Canonical ∧ target.Canonical
  | .record fields => fields.Canonical
  | .extension base fields => base.Canonical ∧ fields.Canonical
  | _ => True

/-- The fields come in strictly increasing order, and so do the rows inside their types. -/
def Row.Canonical : Row → Prop
  | .empty => True
  | .field name type rest =>
    type.Canonical ∧ rest.Canonical ∧ ∀ entry ∈ rest.toList, compare name entry.1 = .lt

end

/-- Put fields on top of a base. A base that is itself a record gives up its fields to the result; the
new fields win over those of the base. -/
def Ty.flatten (fields : Row) : Ty → Ty
  | .record inner => .record (inner.extend fields)
  | .extension base inner => .extension base (inner.extend fields)
  | base => .extension base fields

mutual

/-- Replace variables in one pass, without looking into the replacements. -/
def Ty.mapVars (replace : TypeVar → Ty) : Ty → Ty
  | .var v => replace v
  | .tuple first second => .tuple (first.mapVars replace) (second.mapVars replace)
  | .triple first second third =>
    .triple (first.mapVars replace) (second.mapVars replace) (third.mapVars replace)
  | .list element => .list (element.mapVars replace)
  | .function source target => .function (source.mapVars replace) (target.mapVars replace)
  | .record fields => .record (fields.mapVars replace)
  | .extension base fields => (base.mapVars replace).flatten (fields.mapVars replace)
  | type => type

def Row.mapVars (replace : TypeVar → Ty) : Row → Row
  | .empty => .empty
  | .field name type rest => .field name (type.mapVars replace) (rest.mapVars replace)

end

theorem Ty.size_pos (type : Ty) : 0 < type.size := by
  cases type <;> simp only [Ty.size] <;> omega

namespace Row

/-- Induction on the fields of a row, without regard to their types. -/
@[elab_as_elim]
theorem induction {holds : Row → Prop} (empty : holds empty)
    (field : ∀ name type rest, holds rest → holds (field name type rest)) : ∀ row, holds row
  | .empty => empty
  | .field name type rest => field name type rest (induction empty field rest)

theorem size_insert_le (key : String) (value : Ty) (row : Row) :
    (row.insert key value).size ≤ 1 + value.size + row.size := by
  induction row using Row.induction with
  | empty => simp [insert, size]
  | field name type rest ih =>
    simp only [insert]
    split <;> simp only [size] <;> omega

theorem size_extend_le (row other : Row) : (row.extend other).size ≤ row.size + other.size := by
  induction other using Row.induction generalizing row with
  | empty => simp [extend, size]
  | field name type rest ih =>
    simp only [extend, size]
    have := ih (row.insert name type)
    have := size_insert_le name type row
    omega

theorem size_without_le (row other : Row) : (row.without other).size ≤ row.size := by
  induction row using Row.induction with
  | empty => simp [without, size]
  | field name type rest ih =>
    simp only [without]
    split <;> simp only [size] <;> omega

end Row

end RowInference
