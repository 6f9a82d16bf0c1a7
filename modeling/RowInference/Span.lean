/-! # Positions and spans in a source text

Lines and columns count from 1, and line 0 marks a place that is not known. All coordinates are 64-bit words,
as they are handed over by tools that produce syntax trees.
-/

namespace RowInference

structure Position where
  /-- The line, counted from 1; 0 if not known. -/
  line : UInt64 := 0
  column : UInt64 := 0
  offset : UInt64 := 0
deriving DecidableEq, Repr, Inhabited

namespace Position

def text (position : Position) : String :=
  toString position.line.toNat ++ ":" ++ toString position.column.toNat

/-- Whether a place is not after another one, going by line and column. -/
def notAfter (left right : Position) : Bool :=
  left.line < right.line || (left.line == right.line && left.column ≤ right.column)

end Position

/-- A stretch of a source text. -/
structure Span where
  start : Position := {}
  /-- Where it ends, exclusively. -/
  stop : Position := {}
deriving DecidableEq, Repr, Inhabited

namespace Span

/-- The span of a tree that has no place in a source text. -/
def dummy : Span := {}

/-- The part of one line between two columns. -/
def onLine (line first last : UInt64) : Span := ⟨⟨line, first, 0⟩, ⟨line, last, 0⟩⟩

def isDummy (span : Span) : Bool := span.start.line == 0

/-- The smallest span that contains both; unknown places do not count. -/
def merge (left right : Span) : Span :=
  if left.isDummy then right
  else if right.isDummy then left
  else
    ⟨if left.start.notAfter right.start then left.start else right.start,
      if right.stop.notAfter left.stop then left.stop else right.stop⟩

def text (span : Span) : String := "[" ++ span.start.text ++ " - " ++ span.stop.text ++ "]"

end Span

end RowInference
