import RowInference.Types.Scheme

/-! # Substitutions

A substitution maps variable identities to types. Application replaces a variable by its type and goes
on substituting in the replacement, so that chains of bindings resolve to their end. While a binding is being
expanded it is out of sight, hence a variable met again inside its own expansion stays as it is, and
application ends on every substitution, a cyclic one included.
-/

namespace RowInference

/-- A finite map from variable identities to types. -/
abbrev Substitution := Std.ExtTreeMap VarId Ty

namespace Substitution

def singleton (var : TypeVar) (type : Ty) : Substitution := Std.ExtTreeMap.empty.insert var.id type

/-- Bind a variable, replacing its old binding. -/
def bind (subst : Substitution) (var : TypeVar) (type : Ty) : Substitution :=
  subst.insert var.id type

/-- Add the bindings of another substitution for variables that have none yet. -/
def extend (subst other : Substitution) : Substitution :=
  other ∪ subst

/-- Dropping the binding of a bound variable leaves fewer bindings. -/
theorem size_erase_lt {subst : Substitution} {id : VarId} {type : Ty} (found : subst[id]? = some type) :
    (subst.erase id).size < subst.size := by
  have present : id ∈ subst := Std.ExtTreeMap.mem_iff_isSome_getElem?.mpr (by simp [found])
  have nonempty : subst.size ≠ 0 := by
    intro none
    have : subst = ∅ := Std.ExtTreeMap.eq_empty_iff_size_eq_zero.mpr none
    simp [this] at present
  rw [Std.ExtTreeMap.size_erase, if_pos (Std.ExtTreeMap.contains_iff_mem.mpr present)]
  omega

mutual

/-- Replace variables and resolve the replacements, each binding used at most once on the way down. -/
def resolve (subst : Substitution) (type : Ty) : Ty :=
  match type with
  | .var v =>
    match found : subst[v.id]? with
    | some replacement =>
      have := size_erase_lt found
      resolve (subst.erase v.id) replacement
    | none => .var v
  | .tuple first second => .tuple (resolve subst first) (resolve subst second)
  | .triple first second third =>
    .triple (resolve subst first) (resolve subst second) (resolve subst third)
  | .list element => .list (resolve subst element)
  | .function source target => .function (resolve subst source) (resolve subst target)
  | .record fields => .record (resolveRow subst fields)
  | .extension base fields => (resolve subst base).flatten (resolveRow subst fields)
  | type => type
termination_by (subst.size, sizeOf type)

def resolveRow (subst : Substitution) (row : Row) : Row :=
  match row with
  | .empty => .empty
  | .field name type rest => .field name (resolve subst type) (resolveRow subst rest)
termination_by (subst.size, sizeOf row)

end

/-- Apply a substitution to a type. Rows over a record are flattened on the way; the empty substitution
leaves every type exactly as it is. -/
def apply (subst : Substitution) (type : Ty) : Ty :=
  if subst.isEmpty then type else resolve subst type

/-- Apply a substitution to a scheme, leaving its own binders alone. -/
def applyScheme (subst : Substitution) (scheme : Scheme) : Scheme :=
  let free := scheme.binders.foldl (fun subst binder => subst.erase binder.id) subst
  ⟨scheme.binders, apply free scheme.body⟩

/-- The substitution that applies `first` and then `second`. Of two bindings of one variable the one in
`first` stays, with `second` applied to it. -/
def compose (second first : Substitution) : Substitution :=
  Substitution.extend (first.map fun _ type => second.apply type) second

end Substitution

end RowInference
