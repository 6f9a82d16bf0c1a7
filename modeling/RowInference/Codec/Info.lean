import RowInference.Codec.Types
import RowInference.Typing.State

/-! # Places and annotations as JSON -/

namespace RowInference

open Decoder (fields required orDefault)

def Position.toJson (position : Position) : Json :=
  .object [("line", .nat position.line.toNat), ("column", .nat position.column.toNat),
    ("offset", .nat position.offset.toNat)]

def Position.ofJson? : Decoder Position := fun json => do
  match ← fields ["line", "column", "offset"] json with
  | [line, column, offset] =>
    return ⟨← required Decoder.word line, ← required Decoder.word column, ← orDefault 0 Decoder.word offset⟩
  | _ => none

def Span.toJson (span : Span) : Json :=
  .object [("start", span.start.toJson), ("end", span.stop.toJson)]

def Span.ofJson? : Decoder Span := fun json => do
  match ← fields ["start", "end"] json with
  | [start, stop] => return ⟨← required Position.ofJson? start, ← required Position.ofJson? stop⟩
  | _ => none

def Typed.toJson (typed : Typed) : Json :=
  .object [("span", typed.span.toJson), ("ty", typed.scheme.toJson)]

def Typed.ofJson? : Decoder Typed := fun json => do
  match ← fields ["span", "ty"] json with
  | [span, scheme] => return ⟨← required Span.ofJson? span, ← required Scheme.ofJson? scheme⟩
  | _ => none

/-- How the information on nodes is written and read, and what a node without any has. -/
structure InfoFormat (ι : Type) where
  write : ι → Json
  read : Decoder ι
  missing : ι

def InfoFormat.span : InfoFormat Span := ⟨Span.toJson, Span.ofJson?, {}⟩

def InfoFormat.typed : InfoFormat Typed := ⟨Typed.toJson, Typed.ofJson?, {}⟩

end RowInference
