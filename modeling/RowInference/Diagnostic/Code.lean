/-! # Error codes

Every kind of error has a code under which it is reported, and a hint for the reader, which may be empty.
-/

namespace RowInference

/-- What an error is about. -/
inductive ErrorCategory where
  | typeCheck
  | input
  | resource
deriving DecidableEq, Repr

def ErrorCategory.name : ErrorCategory → String
  | typeCheck => "TypeCheck"
  | input => "Input"
  | resource => "Resource"

/-- A code with what it stands for. -/
structure ErrorCode where
  code : String
  category : ErrorCategory
  kind : String
  help : String
deriving DecidableEq, Repr

namespace ErrorCode

/-- All codes in order. -/
def all : List ErrorCode :=
  [⟨"E1001", .typeCheck, "UnboundVariable", "check the spelling, or import the module that defines it"⟩,
    ⟨"E1002", .typeCheck, "TypeMismatch", ""⟩,
    ⟨"E1003", .typeCheck, "OccursCheckFailed",
      "a value is used in a way that would require an infinitely large type"⟩,
    ⟨"E1004", .typeCheck, "UnsupportedExpression", ""⟩,
    ⟨"E1005", .typeCheck, "NestingTooDeep", "raise `max_depth` in the [infer] section of elm-infer.toml"⟩,
    ⟨"E1006", .typeCheck, "DuplicateBinding", "rename one of the bindings"⟩,
    ⟨"E2001", .input, "ModuleNotFound", ""⟩,
    ⟨"E2002", .input, "DeclarationNotFound", ""⟩,
    ⟨"E2003", .input, "DuplicateDeclaration", "top-level names must be unique within a module"⟩,
    ⟨"E2004", .input, "ImportCycle",
      "break the cycle by moving shared declarations into a separate module"⟩,
    ⟨"E2005", .input, "UnknownImport", "pass the imported module in the same input"⟩,
    ⟨"E3001", .resource, "Resource", "lower `max_depth` in the [infer] section of elm-infer.toml"⟩]

def find? (code : String) : Option ErrorCode := all.find? fun entry => entry.code == code

def forKind? (kind : String) : Option ErrorCode := all.find? fun entry => entry.kind == kind

end ErrorCode

end RowInference
