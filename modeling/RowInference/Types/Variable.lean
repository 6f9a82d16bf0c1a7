import Std.Data.ExtTreeMap

/-! # Type variables

A type variable is an identity together with an optional class constraint. Substitutions look only at
the identity; the constraint travels with the variable and restricts what may replace it. Identities
are either numbered, when inference issued them, or named, when a written type introduced them.
-/

namespace RowInference

open Std (TransOrd LawfulEqOrd TransCmp LawfulEqCmp)

inductive VarId where
  /-- Issued by inference. -/
  | generated (index : Nat)
  /-- Written in a type. -/
  | named (name : String)
deriving DecidableEq, Repr, Inhabited

namespace VarId

/-- Generated identities come first, by number; named ones follow, by code points. -/
protected def compare : VarId → VarId → Ordering
  | generated left, generated right => Ord.compare left right
  | generated _, named _ => .lt
  | named _, generated _ => .gt
  | named left, named right => Ord.compare left right

instance : Ord VarId := ⟨VarId.compare⟩

private theorem compare_swap (left right : VarId) :
    left.compare right = (right.compare left).swap := by
  cases left <;> cases right
  case generated.generated left right =>
    exact (Std.OrientedOrd.eq_swap : compare left right = (compare right left).swap)
  case named.named left right =>
    exact (Std.OrientedOrd.eq_swap : compare left right = (compare right left).swap)
  all_goals rfl

private theorem compare_isLE_trans {first second third : VarId}
    (below : (first.compare second).isLE) (above : (second.compare third).isLE) :
    (first.compare third).isLE := by
  cases first <;> cases second <;> cases third
  case generated.generated.generated first second third =>
    have below : (compare first second).isLE := below
    have above : (compare second third).isLE := above
    have trans : (compare first third).isLE := TransCmp.isLE_trans below above
    exact trans
  case named.named.named first second third =>
    have below : (compare first second).isLE := below
    have above : (compare second third).isLE := above
    have trans : (compare first third).isLE := TransCmp.isLE_trans below above
    exact trans
  all_goals first | rfl | contradiction

instance : TransOrd VarId where
  eq_swap := compare_swap _ _
  isLE_trans := compare_isLE_trans

instance : LawfulEqOrd VarId where
  compare_self := by
    intro id
    cases id with
    | generated index => exact (Std.ReflOrd.compare_self : compare index index = .eq)
    | named name => exact (Std.ReflOrd.compare_self : compare name name = .eq)
  eq_of_compare := by
    intro left right same
    cases left <;> cases right
    case generated.generated left right =>
      exact congrArg generated (LawfulEqCmp.eq_of_compare (show compare left right = .eq from same))
    case named.named left right =>
      exact congrArg named (LawfulEqCmp.eq_of_compare (show compare left right = .eq from same))
    all_goals contradiction

/-- The written form: `t3` for a generated identity, the name itself for a named one. -/
def text : VarId → String
  | generated index => "t" ++ toString index
  | named name => name

end VarId

/-- A class of types to which a variable may be restricted. -/
inductive Constraint where
  /-- `Int` and `Float`. -/
  | number
  /-- `String` and every list type. -/
  | appendable
deriving DecidableEq, Repr, Inhabited

namespace Constraint

def name : Constraint → String
  | number => "number"
  | appendable => "appendable"

/-- The place of an optional constraint: none, `number`, `appendable`. -/
def rank : Option Constraint → Nat
  | none => 0
  | some number => 1
  | some appendable => 2

end Constraint

/-- A type variable: an identity and the class its replacements must belong to. -/
structure TypeVar where
  id : VarId
  constraint : Option Constraint := none
deriving DecidableEq, Repr, Inhabited

namespace TypeVar

/-- Variables are ordered by identity, then by constraint. -/
protected def compare (left right : TypeVar) : Ordering :=
  (Ord.compare left.id right.id).then
    (Ord.compare (Constraint.rank left.constraint) (Constraint.rank right.constraint))

instance : Ord TypeVar := ⟨TypeVar.compare⟩

def le (left right : TypeVar) : Bool := (left.compare right).isLE

def generated (index : Nat) : TypeVar := ⟨.generated index, none⟩

def named (name : String) : TypeVar := ⟨.named name, none⟩

def isConstrained (var : TypeVar) : Bool := var.constraint.isSome

/-- The written form: the identity, followed by `:` and the class of a constrained variable. -/
def text (var : TypeVar) : String :=
  match var.constraint with
  | some constraint => var.id.text ++ ":" ++ constraint.name
  | none => var.id.text

end TypeVar

/-- The source of new variables of one inference run: how many have been issued so far. The count is unbounded;
a counter in a word of 32 bits shows the same numbers as long as they are below `UInt32.size`. No variable is ever taken
back, so a run that ends below that size has been below it all along. -/
structure Supply where
  issued : Nat := 0
deriving DecidableEq, Repr, Inhabited

namespace Supply

/-- Issue the next variable with a given constraint. -/
def fresh (supply : Supply) (constraint : Option Constraint) : TypeVar × Supply :=
  (⟨.generated supply.issued, constraint⟩, ⟨supply.issued + 1⟩)

end Supply

end RowInference
