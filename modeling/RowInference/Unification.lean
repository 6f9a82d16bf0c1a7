import RowInference.Substitution
import RowInference.Types.Printer

/-! # Unification

`unify` finds the most general substitution that makes two types equal, or says why there is none. A
variable may be bound to any type that does not contain it and that belongs to its class. Records are
unified by row: fields with a common name are unified, and the tail of an open row takes up the fields
that only the other side has. Two open rows with different tails share a fresh tail.

Equations are solved from left to right, each under the substitution found so far. Applying that
substitution can enlarge an equation, so a size alone does not bound the work: every step made under a
non-empty substitution uses up one *round*, and within a round the equations get smaller. `rounds`
allows for more steps than the two types have variables.
-/

namespace RowInference

/-- Why two types have no unifier. -/
inductive UnifyError where
  /-- Different constructors, or a type outside the class of a variable. -/
  | mismatch (expected actual : Ty)
  /-- A variable would have to contain itself. -/
  | occurs (var : TypeVar) (type : Ty)
  /-- The allowed rounds were used up at this equation. -/
  | unsettled (expected actual : Ty)
deriving DecidableEq, Repr

/-- The text of a failure. The two types of a mismatch are named independently. -/
def UnifyError.message : UnifyError → String
  | mismatch expected actual | unsettled expected actual =>
    "type mismatch: expected " ++ expected.text ++ ", found " ++ actual.text
  | occurs var type => "infinite type: " ++ var.text ++ " occurs in " ++ type.text

/-- Unification can fail, and issues variables; those issued before a failure stay issued. -/
abbrev UnifyM := ExceptT UnifyError (StateM Supply)

/-- Two types that should become equal. -/
structure Equation where
  expected : Ty
  actual : Ty
deriving DecidableEq, Repr

namespace Equation

def size (equation : Equation) : Nat := equation.expected.size + equation.actual.size

/-- The size of the largest equation of a list. -/
def largest : List Equation → Nat
  | [] => 0
  | equation :: rest => max equation.size (largest rest)

theorem size_le_largest (equation : Equation) (rest : List Equation) :
    equation.size ≤ largest (equation :: rest) := Nat.le_max_left ..

theorem largest_rest_le (equation : Equation) (rest : List Equation) :
    largest rest ≤ largest (equation :: rest) := Nat.le_max_right ..

def mismatch (equation : Equation) : UnifyError := .mismatch equation.expected equation.actual

end Equation

/-- All known fields of a record and, if it is open, the type that stands for the others. Fields of an
extension win over those of its base. -/
def Ty.rowParts : Ty → Row × Option Ty
  | .record fields => (fields, none)
  | .extension base fields => ((base.rowParts.1).extend fields, base.rowParts.2)
  | type => (.empty, some type)

/-- Put fields on top of a tail; without fields the tail itself. -/
def Ty.openRow (tail : Ty) (fields : Row) : Ty :=
  if fields.isEmpty then tail else .extension tail fields

/-- Equations between the fields that two records have in common. -/
def fieldEquations (expected actual : Ty) : List Equation :=
  (expected.rowParts.1.common actual.rowParts.1).map fun pair => ⟨pair.1, pair.2⟩

/-- Whether two records need a new tail: both are open, with different tails and different fields. -/
def needsSharedTail (expected actual : Ty) : Bool :=
  match expected.rowParts, actual.rowParts with
  | (left, some leftTail), (right, some rightTail) =>
    leftTail ≠ rightTail && !((left.without right).isEmpty && (right.without left).isEmpty)
  | _, _ => false

/-- Equations for the fields that only one of two records has. An open row takes the other side's extra
fields into its tail; `shared` is the tail that two different open rows get in common. -/
def tailEquations (shared expected actual : Ty) : Except UnifyError (List Equation) :=
  let (left, leftTail) := expected.rowParts
  let (right, rightTail) := actual.rowParts
  let onlyLeft := left.without right
  let onlyRight := right.without left
  let refused : Except UnifyError (List Equation) := .error (.mismatch expected actual)
  match leftTail, rightTail with
  | none, none => if onlyLeft.isEmpty && onlyRight.isEmpty then .ok [] else refused
  | some tail, none => if onlyLeft.isEmpty then .ok [⟨tail, .record onlyRight⟩] else refused
  | none, some tail => if onlyRight.isEmpty then .ok [⟨tail, .record onlyLeft⟩] else refused
  | some leftTail, some rightTail =>
    if leftTail = rightTail then
      if onlyLeft.isEmpty && onlyRight.isEmpty then .ok [] else refused
    else if onlyLeft.isEmpty && onlyRight.isEmpty then .ok [⟨leftTail, rightTail⟩]
    else .ok [⟨leftTail, shared.openRow onlyRight⟩, ⟨rightTail, shared.openRow onlyLeft⟩]

/-- Unify two variables: a constrained one represents an unconstrained one, and of two variables of one
class the expected one stays. -/
def unifyVars (expected actual : TypeVar) : Except UnifyError Substitution :=
  if expected.id = actual.id then .ok {}
  else
    match expected.constraint, actual.constraint with
    | none, _ => .ok (Substitution.singleton expected (.var actual))
    | some _, none => .ok (Substitution.singleton actual (.var expected))
    | some left, some right =>
      if left = right then .ok (Substitution.singleton actual (.var expected))
      else .error (.mismatch (.var expected) (.var actual))

/-- Bind a variable of an equation to the type on its other side. -/
def bindVar (var : TypeVar) (type : Ty) (equation : Equation) : Except UnifyError Substitution :=
  if type.occurs var.id then .error (.occurs var type)
  else
    match var.constraint with
    | none => .ok (Substitution.singleton var type)
    | some constraint =>
      if type.satisfies constraint then .ok (Substitution.singleton var type)
      else .error equation.mismatch

/-- The variable for a shared tail, issued only where one is needed. -/
def sharedTail (expected actual : Ty) : UnifyM TypeVar :=
  modifyGet fun supply =>
    let (var, next) := supply.fresh none
    (var, if needsSharedTail expected actual then next else supply)

/-! ## Sizes

The parts of a record are smaller than the record, and so are the equations made from them. -/

theorem Ty.rowParts_size_le (type : Ty) :
    type.rowParts.1.size + (type.rowParts.2.elim 0 Ty.size) ≤ type.size := by
  induction type using Ty.rowParts.induct with
  | case1 fields => simp [Ty.rowParts, Ty.size]
  | case2 base fields ih =>
    simp only [Ty.rowParts, Ty.size]
    have := Row.size_extend_le base.rowParts.1 fields
    omega
  | case3 type notRecord notExtension =>
    cases type <;> simp_all [Ty.rowParts, Ty.size, Row.size]

theorem Ty.rowParts_size_lt {type : Ty} (isRecord : type.isRecord = true) :
    type.rowParts.1.size + (type.rowParts.2.elim 0 Ty.size) < type.size := by
  cases type <;> simp [Ty.isRecord] at isRecord
  case record fields => simp [Ty.rowParts, Ty.size]
  case extension base fields =>
    simp only [Ty.rowParts, Ty.size]
    have := Ty.rowParts_size_le base
    have := Row.size_extend_le base.rowParts.1 fields
    omega

theorem Ty.openRow_size_le (id : TypeVar) (fields : Row) :
    ((Ty.var id).openRow fields).size ≤ 2 + fields.size := by
  simp only [Ty.openRow]
  split <;> simp only [Ty.size] <;> omega

theorem Row.get?_size_le {row : Row} {name : String} {type : Ty} (found : row.get? name = some type) :
    type.size ≤ row.size := by
  induction row using Row.induction with
  | empty => simp [Row.get?] at found
  | field other head rest ih =>
    simp only [Row.get?] at found
    split at found
    · cases found; simp only [Row.size]; omega
    · have := ih found; simp only [Row.size]; omega

theorem largest_common_le (left right : Row) :
    Equation.largest ((left.common right).map fun pair => ⟨pair.1, pair.2⟩)
      ≤ left.size + right.size := by
  induction left using Row.induction with
  | empty => simp [Row.common, Equation.largest]
  | field name type rest ih =>
    simp only [Row.common, Row.size]
    split
    · rename_i partner found
      have := Row.get?_size_le found
      simp only [List.map_cons, Equation.largest, Equation.size]
      omega
    · omega

theorem largest_fieldEquations_lt {expected actual : Ty} (left : expected.isRecord = true)
    (right : actual.isRecord = true) :
    Equation.largest (fieldEquations expected actual) < expected.size + actual.size := by
  have := largest_common_le expected.rowParts.1 actual.rowParts.1
  have := Ty.rowParts_size_lt left
  have := Ty.rowParts_size_lt right
  simp only [fieldEquations]
  omega

theorem largest_tailEquations_lt {shared : TypeVar} {expected actual : Ty}
    {equations : List Equation} (left : expected.isRecord = true) (right : actual.isRecord = true)
    (planned : tailEquations (.var shared) expected actual = .ok equations) :
    Equation.largest equations < expected.size + actual.size := by
  have leftLt := Ty.rowParts_size_lt left
  have rightLt := Ty.rowParts_size_lt right
  simp only [tailEquations] at planned
  generalize expected.rowParts = leftParts at *
  generalize actual.rowParts = rightParts at *
  obtain ⟨leftFields, leftTail⟩ := leftParts
  obtain ⟨rightFields, rightTail⟩ := rightParts
  have leftOnly := Row.size_without_le leftFields rightFields
  have rightOnly := Row.size_without_le rightFields leftFields
  have leftOpen := Ty.openRow_size_le shared (leftFields.without rightFields)
  have rightOpen := Ty.openRow_size_le shared (rightFields.without leftFields)
  cases leftTail <;> cases rightTail <;> simp only [Option.elim] at leftLt rightLt planned
  · split at planned <;> cases planned
    simp only [Equation.largest]; omega
  · split at planned <;> cases planned
    simp only [Equation.largest, Equation.size, Ty.size]; omega
  · split at planned <;> cases planned
    simp only [Equation.largest, Equation.size, Ty.size]; omega
  · rename_i leftTail rightTail
    have := leftTail.size_pos
    have := rightTail.size_pos
    split at planned
    · split at planned <;> cases planned
      simp only [Equation.largest]; omega
    · split at planned <;> cases planned
      · simp only [Equation.largest, Equation.size]; omega
      · simp only [Equation.largest, Equation.size]; omega

/-! ## The algorithm -/

mutual

/-- Unify two types, using at most `rounds` nested steps under a non-empty substitution. -/
def unifyWithin (rounds : Nat) (expected actual : Ty) : UnifyM Substitution :=
  match expected, actual with
  | .var left, .var right => liftExcept (unifyVars left right)
  | .var var, type => liftExcept (bindVar var type ⟨.var var, type⟩)
  | type, .var var => liftExcept (bindVar var type ⟨type, .var var⟩)
  | .tuple first second, .tuple first' second' =>
    solve rounds {} [⟨first, first'⟩, ⟨second, second'⟩]
  | .triple first second third, .triple first' second' third' =>
    solve rounds {} [⟨first, first'⟩, ⟨second, second'⟩, ⟨third, third'⟩]
  | .list element, .list element' => unifyWithin rounds element element'
  | .function source target, .function source' target' =>
    solve rounds {} [⟨source, source'⟩, ⟨target, target'⟩]
  | expected, actual =>
    if records : expected.isRecord ∧ actual.isRecord then do
      have := largest_fieldEquations_lt records.1 records.2
      let solved ← solve rounds {} (fieldEquations expected actual)
      let shared ← sharedTail expected actual
      match planned : tailEquations (.var shared) expected actual with
      | .error error => throw error
      | .ok equations =>
        have := largest_tailEquations_lt records.1 records.2 planned
        solve rounds solved equations
    else if expected.isAtom ∧ expected = actual then pure {}
    else throw (.mismatch expected actual)
termination_by (rounds, expected.size + actual.size, 0, 0)
decreasing_by
  all_goals
    apply Prod.Lex.right
    apply Prod.Lex.left
    first
    | assumption
    | simp only [Equation.largest, Equation.size, Ty.size]; omega

/-- Solve equations from left to right on top of a substitution. -/
def solve (rounds : Nat) (solved : Substitution) (equations : List Equation) :
    UnifyM Substitution :=
  match equations with
  | [] => pure solved
  | equation :: rest =>
    (if solved.isEmpty then unifyWithin rounds equation.expected equation.actual
      else
        match rounds with
        | 0 => throw (.unsettled equation.expected equation.actual)
        | rounds + 1 =>
          unifyWithin rounds (solved.apply equation.expected) (solved.apply equation.actual)) >>=
      fun found => solve rounds (found.compose solved) rest
termination_by (rounds, Equation.largest equations, 1, equations.length)
decreasing_by
  · apply Prod.Lex.right
    rcases Nat.lt_or_eq_of_le (Equation.size_le_largest equation rest) with less | same
    · exact .left _ _ less
    · rw [← same]
      exact .right _ (.left _ _ Nat.zero_lt_one)
  · exact .left _ _ (Nat.lt_succ_self _)
  · apply Prod.Lex.right
    rcases Nat.lt_or_eq_of_le (Equation.largest_rest_le equation rest) with less | same
    · exact .left _ _ less
    · rw [← same]
      exact .right _ (.right _ (Nat.lt_succ_self _))

end

/-- How many nested steps under a non-empty substitution two types are allowed. -/
def unificationRounds (expected actual : Ty) : Nat := 2 * (expected.size + actual.size)

/-- The most general substitution that makes two types equal. -/
def unify (expected actual : Ty) : UnifyM Substitution :=
  unifyWithin (unificationRounds expected actual) expected actual

end RowInference
