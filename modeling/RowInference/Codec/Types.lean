import RowInference.Codec.Decoder
import RowInference.Types.Scheme

/-! # Types as JSON -/

namespace RowInference

open Decoder (fields required orDefault nullable tag bare)

def VarId.toJson : VarId → Json
  | .generated index => .tagged "Generated" (.nat index)
  | .named name => .tagged "Named" (.string name)

/-- Numbers of variables are below 2^32. -/
def VarId.ofJson? : Decoder VarId := fun json => do
  match ← tag json with
  | ("Generated", some content) => return .generated (← Decoder.below 0x100000000 content)
  | ("Named", some content) => return .named (← Decoder.string content)
  | _ => none

def Constraint.toJson : Constraint → Json
  | .number => .string "Number"
  | .appendable => .string "Appendable"

def Constraint.ofJson? : Decoder Constraint := fun json => do
  match ← tag json with
  | ("Number", content) => bare .number content
  | ("Appendable", content) => bare .appendable content
  | _ => none

def TypeVar.toJson (var : TypeVar) : Json :=
  .object [("id", var.id.toJson), ("constraint", .orNull Constraint.toJson var.constraint)]

def TypeVar.ofJson? : Decoder TypeVar := fun json => do
  match ← fields ["id", "constraint"] json with
  | [id, constraint] =>
    return ⟨← required VarId.ofJson? id, ← orDefault none (nullable Constraint.ofJson?) constraint⟩
  | _ => none

mutual

def Ty.toJson : Ty → Json
  | .unit => .string "Unit"
  | .bool => .string "Bool"
  | .char => .string "Char"
  | .string => .string "String"
  | .int => .string "Int"
  | .float => .string "Float"
  | .var var => .tagged "Var" var.toJson
  | .tuple first second => .tagged "Tuple" (.array [first.toJson, second.toJson])
  | .triple first second third => .tagged "Tuple3" (.array [first.toJson, second.toJson, third.toJson])
  | .list element => .tagged "List" element.toJson
  | .function domain codomain =>
    .tagged "Function" (.object [("from", domain.toJson), ("to", codomain.toJson)])
  | .record row => .tagged "Record" (.object row.toFields)
  | .extension base row =>
    .tagged "ExtensibleRecord" (.object [("base", base.toJson), ("fields", .object row.toFields)])

def Row.toFields : Row → List (String × Json)
  | .empty => []
  | .field name type rest => (name, type.toJson) :: rest.toFields

end

namespace Ty

/-- Read a type, given how to read the types inside it. -/
def ofTag (inner : Decoder Ty) : String × Option Json → Option Ty
  | ("Unit", content) => bare .unit content
  | ("Bool", content) => bare .bool content
  | ("Char", content) => bare .char content
  | ("String", content) => bare .string content
  | ("Int", content) => bare .int content
  | ("Float", content) => bare .float content
  | ("Var", some content) => (TypeVar.ofJson? content).map .var
  | ("Tuple", some content) =>
    (Decoder.pair inner inner content).map fun (first, second) => .tuple first second
  | ("Tuple3", some content) =>
    (Decoder.triple inner inner inner content).map fun (first, second, third) => .triple first second third
  | ("List", some content) => (inner content).map .list
  | ("Function", some content) => do
    match ← fields ["from", "to"] content with
    | [domain, codomain] => return .function (← required inner domain) (← required inner codomain)
    | _ => none
  | ("Record", some content) => (Decoder.entries inner content).map fun row => .record (Row.ofList row)
  | ("ExtensibleRecord", some content) => do
    match ← fields ["base", "fields"] content with
    | [base, row] =>
      return .extension (← required inner base) (Row.ofList (← required (Decoder.entries inner) row))
    | _ => none
  | _ => none

/-- Read a type in which types are nested at most `depth` deep. -/
def ofJsonWithin : Nat → Decoder Ty
  | 0, _ => none
  | depth + 1, json => tag json >>= ofTag (ofJsonWithin depth)

def ofJson? : Decoder Ty := fun json => ofJsonWithin (json.depth + 1) json

end Ty

def Scheme.toJson (scheme : Scheme) : Json :=
  .object [("type_binders", .list TypeVar.toJson scheme.binders), ("body", scheme.body.toJson)]

def Scheme.ofJson? : Decoder Scheme := fun json => do
  match ← fields ["type_binders", "body"] json with
  | [binders, body] =>
    return ⟨← required (Decoder.list TypeVar.ofJson?) binders, ← required Ty.ofJson? body⟩
  | _ => none

end RowInference
