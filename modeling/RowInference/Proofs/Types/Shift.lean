import RowInference.Proofs.Types.Instantiation
import RowInference.Proofs.Types.Relabelling

/-! # Counting variables from a later number

Two runs of inference that differ only in how many variables were issued before them issue variables whose numbers
differ by a constant. Shifting a type adds a constant to the numbers of its generated variables, which is one way of
relabelling it. Everything that is done with types commutes with it, and what a scheme without free variables yields
does not see it.
-/

namespace RowInference

variable {offset : Nat}

/-! ## Variables -/

/-- Add a constant to the number of a generated variable. -/
def VarId.shift (offset : Nat) : VarId → VarId
  | .generated index => .generated (index + offset)
  | .named name => .named name

/-- The identity that is shifted to a given one, if there is one. -/
def VarId.unshift (offset : Nat) : VarId → Option VarId
  | .generated index => if offset ≤ index then some (.generated (index - offset)) else none
  | .named name => some (.named name)

/-- An identity is unshifted to the one it was shifted from. -/
theorem VarId.unshift_eq_some {id source : VarId} : id.unshift offset = some source ↔ id = source.shift offset := by
  cases id <;> cases source <;> simp only [unshift, shift]
  case generated.generated index number =>
    by_cases le : offset ≤ index <;> simp [le] <;> omega
  all_goals try split
  all_goals simp [eq_comm]

theorem VarId.shift_injective {left right : VarId} (same : left.shift offset = right.shift offset) : left = right := by
  have found := unshift_eq_some.mpr same
  rw [unshift_eq_some.mpr rfl] at found
  exact Option.some.inj found

@[simp] theorem VarId.shift_inj {left right : VarId} : left.shift offset = right.shift offset ↔ left = right :=
  ⟨shift_injective, congrArg _⟩

def TypeVar.shift (offset : Nat) (v : TypeVar) : TypeVar := { v with id := v.id.shift offset }

@[simp] theorem TypeVar.shift_id (v : TypeVar) : (v.shift offset).id = v.id.shift offset := rfl

@[simp] theorem TypeVar.shift_constraint (v : TypeVar) : (v.shift offset).constraint = v.constraint := rfl

@[simp] theorem TypeVar.shift_inj {left right : TypeVar} : left.shift offset = right.shift offset ↔ left = right := by
  obtain ⟨leftId, leftConstraint⟩ := left
  obtain ⟨rightId, rightConstraint⟩ := right
  simp [TypeVar.shift]

/-- A supply from which as many more variables have been issued. -/
def Supply.shift (offset : Nat) (supply : Supply) : Supply := ⟨supply.issued + offset⟩

/-! ## Types and rows -/

mutual

def Ty.shift (offset : Nat) : Ty → Ty
  | .var v => .var (v.shift offset)
  | .tuple first second => .tuple (first.shift offset) (second.shift offset)
  | .triple first second third => .triple (first.shift offset) (second.shift offset) (third.shift offset)
  | .list element => .list (element.shift offset)
  | .function source target => .function (source.shift offset) (target.shift offset)
  | .record fields => .record (fields.shift offset)
  | .extension base fields => .extension (base.shift offset) (fields.shift offset)
  | type => type

def Row.shift (offset : Nat) : Row → Row
  | .empty => .empty
  | .field name type rest => .field name (type.shift offset) (rest.shift offset)

end

mutual

/-- A shift is a relabelling. -/
theorem Ty.shift_eq_relabel : ∀ type : Ty, type.shift offset = type.relabel (VarId.shift offset)
  | .unit | .bool | .char | .string | .int | .float | .var _ => rfl
  | .tuple first second => by rw [Ty.shift, Ty.relabel, Ty.shift_eq_relabel first, Ty.shift_eq_relabel second]
  | .triple first second third => by
    rw [Ty.shift, Ty.relabel, Ty.shift_eq_relabel first, Ty.shift_eq_relabel second, Ty.shift_eq_relabel third]
  | .list element => by rw [Ty.shift, Ty.relabel, Ty.shift_eq_relabel element]
  | .function source target => by rw [Ty.shift, Ty.relabel, Ty.shift_eq_relabel source, Ty.shift_eq_relabel target]
  | .record fields => by rw [Ty.shift, Ty.relabel, Row.shift_eq_relabel fields]
  | .extension base fields => by rw [Ty.shift, Ty.relabel, Ty.shift_eq_relabel base, Row.shift_eq_relabel fields]

theorem Row.shift_eq_relabel : ∀ row : Row, row.shift offset = row.relabel (VarId.shift offset)
  | .empty => rfl
  | .field _ type rest => by rw [Row.shift, Row.relabel, Ty.shift_eq_relabel type, Row.shift_eq_relabel rest]

end

namespace Row

@[simp] theorem get?_shift (row : Row) (key : String) :
    (row.shift offset).get? key = (row.get? key).map (Ty.shift offset) := by
  induction row using Row.induction with
  | empty => rfl
  | field name type rest ih =>
    rw [shift, get?, get?, ih]
    split <;> rfl

@[simp] theorem contains_shift (row : Row) (key : String) : (row.shift offset).contains key = row.contains key := by
  rw [contains, contains, get?_shift, Option.isSome_map]

@[simp] theorem isEmpty_shift (row : Row) : (row.shift offset).isEmpty = row.isEmpty := by
  cases row <;> rfl

theorem shift_insert (row : Row) (key : String) (value : Ty) :
    (row.insert key value).shift offset = (row.shift offset).insert key (value.shift offset) := by
  rw [shift_eq_relabel, relabel_insert, shift_eq_relabel, Ty.shift_eq_relabel]

theorem shift_extend (row other : Row) :
    (row.extend other).shift offset = (row.shift offset).extend (other.shift offset) := by
  simp only [shift_eq_relabel, relabel_extend]

/-- Shifting changes no names, so the same fields are left. -/
theorem shift_without (row other : Row) :
    (row.without other).shift offset = (row.shift offset).without (other.shift offset) := by
  induction row using Row.induction with
  | empty => rfl
  | field name type rest ih =>
    rw [without, shift, without, contains_shift]
    split
    · exact ih
    · rw [shift, ih]

theorem shift_ofList (fields : List (String × Ty)) :
    (ofList fields).shift offset = ofList (fields.map fun entry => (entry.1, entry.2.shift offset)) := by
  have general : ∀ row : Row, (fields.foldl (fun row entry => row.insert entry.1 entry.2) row).shift offset
      = (fields.map fun entry => (entry.1, entry.2.shift offset)).foldl (fun row entry => row.insert entry.1 entry.2)
        (row.shift offset) := by
    induction fields with
    | nil => exact fun _ => rfl
    | cons entry rest ih =>
      intro row
      rw [List.foldl_cons, ih, shift_insert, List.map_cons, List.foldl_cons]
  exact general empty

/-- The common fields of shifted rows are the shifted common fields. -/
theorem common_shift (row other : Row) : (row.shift offset).common (other.shift offset)
    = (row.common other).map fun pair => (pair.1.shift offset, pair.2.shift offset) := by
  induction row using Row.induction with
  | empty => rfl
  | field name type rest ih =>
    rw [shift, common, common, get?_shift]
    cases other.get? name with
    | none => exact ih
    | some partner => rw [Option.map_some, List.map_cons, ih]

end Row

namespace Ty

@[simp] theorem isAtom_shift (type : Ty) : (type.shift offset).isAtom = type.isAtom := by
  cases type <;> rfl

@[simp] theorem isRecord_shift (type : Ty) : (type.shift offset).isRecord = type.isRecord := by
  cases type <;> rfl

@[simp] theorem satisfies_shift (constraint : Constraint) (type : Ty) :
    (type.shift offset).satisfies constraint = type.satisfies constraint := by
  cases constraint <;> cases type <;> rfl

theorem shift_curried (parameters : List Ty) (result : Ty) :
    (curried parameters result).shift offset = curried (parameters.map (shift offset)) (result.shift offset) := by
  induction parameters with
  | nil => rfl
  | cons parameter rest ih => exact congrArg (function (parameter.shift offset)) ih

end Ty

mutual

@[simp] theorem Ty.size_shift : ∀ type : Ty, (type.shift offset).size = type.size
  | .unit | .bool | .char | .string | .int | .float | .var _ => rfl
  | .tuple first second => by simp [Ty.shift, Ty.size, Ty.size_shift first, Ty.size_shift second]
  | .triple first second third => by
    simp [Ty.shift, Ty.size, Ty.size_shift first, Ty.size_shift second, Ty.size_shift third]
  | .list element => by simp [Ty.shift, Ty.size, Ty.size_shift element]
  | .function source target => by simp [Ty.shift, Ty.size, Ty.size_shift source, Ty.size_shift target]
  | .record fields => by simp [Ty.shift, Ty.size, Row.size_shift fields]
  | .extension base fields => by simp [Ty.shift, Ty.size, Ty.size_shift base, Row.size_shift fields]

theorem Row.size_shift : ∀ row : Row, (row.shift offset).size = row.size
  | .empty => rfl
  | .field _ type rest => by simp [Row.shift, Row.size, Ty.size_shift type, Row.size_shift rest]

end

@[simp] theorem Ty.occurrences_shift (type : Ty) :
    (type.shift offset).occurrences = type.occurrences.map (TypeVar.shift offset) := by
  rw [Ty.shift_eq_relabel, Ty.occurrences_relabel]
  rfl

@[simp] theorem Ty.occurs_shift (id : VarId) (type : Ty) :
    (type.shift offset).occurs (id.shift offset) = type.occurs id := by
  rw [Bool.eq_iff_iff, Ty.occurs_iff, Ty.occurs_iff]
  simp

/-- A variable of which no other one is the shift does not occur in shifted types. -/
theorem Ty.occurs_shift_eq_false {id : VarId} (new : id.unshift offset = none) (type : Ty) :
    (type.shift offset).occurs id = false := by
  rw [Bool.eq_false_iff, ne_eq, Ty.occurs_iff, Ty.occurrences_shift]
  rintro ⟨_, member, rfl⟩
  obtain ⟨source, _, rfl⟩ := List.mem_map.mp member
  rw [TypeVar.shift_id, VarId.unshift_eq_some.mpr rfl] at new
  cases new

/-- Different types are different after a shift. -/
theorem Ty.shift_injective {left right : Ty} (same : left.shift offset = right.shift offset) : left = right := by
  rw [Ty.shift_eq_relabel, Ty.shift_eq_relabel] at same
  exact Ty.relabel_injective (fun _ _ => VarId.shift_injective) same

@[simp] theorem Ty.shift_inj {left right : Ty} : left.shift offset = right.shift offset ↔ left = right :=
  ⟨Ty.shift_injective, congrArg _⟩

/-- Replacing the variables of a shifted type. -/
theorem Ty.mapVars_shift (replace : TypeVar → Ty) (type : Ty) :
    (type.shift offset).mapVars replace = type.mapVars fun v => replace (v.shift offset) := by
  rw [Ty.shift_eq_relabel, Ty.mapVars_relabel]
  rfl

/-- Shifting a type whose variables have been replaced. -/
theorem Ty.shift_mapVars (replace : TypeVar → Ty) (type : Ty) :
    (type.mapVars replace).shift offset = type.mapVars fun v => (replace v).shift offset := by
  simp only [Ty.shift_eq_relabel, Ty.relabel_mapVars]

end RowInference
