import RowInference.Codec.Tree
import RowInference.Tree.Module

/-! # Declarations and modules as JSON -/

namespace RowInference

open Decoder (fields required orDefault nullable tag bare)

variable {ι : Type}

def Exposing.toJson : Exposing → Json
  | .nothing => .string "Nothing"
  | .everything => .string "All"
  | .names exposed => .tagged "Names" (.list .string exposed)

def Exposing.ofJson? : Decoder Exposing := fun json => do
  match ← tag json with
  | ("Nothing", content) => bare .nothing content
  | ("All", content) => bare .everything content
  | ("Names", some content) => return .names (← Decoder.list Decoder.string content)
  | _ => none

def Import.toJson (entry : Import) : Json :=
  .object [("module", .string entry.target), ("alias", .orNull .string entry.localName),
    ("exposing", entry.exposing.toJson)]

def Import.ofJson? : Decoder Import := fun json => do
  match ← fields ["module", "alias", "exposing"] json with
  | [target, localName, exposing] =>
    return ⟨← required Decoder.string target, ← orDefault none (nullable Decoder.string) localName,
      ← orDefault .nothing Exposing.ofJson? exposing⟩
  | _ => none

def Declaration.toJson (write : ι → Json) (declaration : Declaration ι) : Json :=
  .object [("name", .string declaration.name),
    ("args", .array (Pattern.itemsJson write declaration.params)),
    ("body", declaration.body.toJson write), ("meta", write declaration.info)]

def Declaration.ofJson? (format : InfoFormat ι) : Decoder (Declaration ι) := fun json => do
  match ← fields ["name", "args", "body", "meta"] json with
  | [name, params, body, info] =>
    return ⟨← required Decoder.string name, ← orDefault [] (Decoder.list (Pattern.ofJson? format)) params,
      ← required (Expr.ofJson? format) body, ← orDefault format.missing format.read info⟩
  | _ => none

def Module.toJson (write : ι → Json) (module : Module ι) : Json :=
  .object [("name", .string module.name), ("imports", .list Import.toJson module.imports),
    ("declarations", .list (Declaration.toJson write) module.declarations)]

def Module.ofJson? (format : InfoFormat ι) : Decoder (Module ι) := fun json => do
  match ← fields ["name", "imports", "declarations"] json with
  | [name, imports, declarations] =>
    return ⟨← required Decoder.string name, ← orDefault [] (Decoder.list Import.ofJson?) imports,
      ← orDefault [] (Decoder.list (Declaration.ofJson? format)) declarations⟩
  | _ => none

/-- Modules under their keys as one object. -/
def ModuleMap.toJson (write : ι → Json) (modules : ModuleMap ι) : Json :=
  .object (modules.map fun (key, module) => (key, module.toJson write))

end RowInference
