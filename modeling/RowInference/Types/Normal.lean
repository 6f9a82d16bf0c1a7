import RowInference.Types.Letters
import RowInference.Types.Scheme

/-! # Normal forms of schemes

Two schemes that differ only in the choice of variables have one normal form. Generated variables are
renumbered from 0 and named ones renamed to letters, both in order of first appearance in the body;
binders that the body does not mention come last. Constraints stay.
-/

namespace RowInference

/-- A renaming built up variable by variable. -/
structure Renaming where
  /-- The new variable of each variable met. -/
  chosen : Std.ExtTreeMap VarId TypeVar := {}
  generated : Nat := 0
  named : Nat := 0

namespace Renaming

/-- Choose the next new variable for a variable not met before. -/
def meet (table : Renaming) (var : TypeVar) : Renaming :=
  if table.chosen.contains var.id then table
  else
    match var.id with
    | .generated _ =>
      { table with
        chosen := table.chosen.insert var.id ⟨.generated table.generated, var.constraint⟩
        generated := table.generated + 1 }
    | .named _ =>
      { table with
        chosen := table.chosen.insert var.id ⟨.named (letterName table.named), var.constraint⟩
        named := table.named + 1 }

def rename (table : Renaming) (var : TypeVar) : TypeVar :=
  table.chosen[var.id]?.getD var

end Renaming

namespace Scheme

/-- The renaming to normal form: first the body's variables, then the binders it does not mention. -/
def canonicalNames (scheme : Scheme) : Renaming :=
  scheme.binders.foldl Renaming.meet (scheme.body.freeVars.foldl Renaming.meet {})

/-- The normal form. Its binders are sorted, each once. -/
def normalize (scheme : Scheme) : Scheme :=
  let table := scheme.canonicalNames
  ⟨((scheme.binders.map table.rename).mergeSort TypeVar.le).eraseDups,
    scheme.body.mapVars fun var => .var (table.rename var)⟩

/-- Whether two schemes differ only in the choice of variables. -/
def alphaEq (left right : Scheme) : Bool := left.normalize = right.normalize

end Scheme

/-- The normal form of a type: all its variables renamed. -/
def Ty.normalize (type : Ty) : Ty := (Scheme.mono type).normalize.body

end RowInference
