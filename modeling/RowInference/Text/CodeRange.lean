/-! # Ranges of code points

A set of characters is given as a list of ranges of code points. The tables of character properties have this form.
-/

namespace RowInference.Text

/-- A set of characters, as ranges of code points with both ends included. -/
abbrev CodeRanges := List (Nat × Nat)

def CodeRanges.covers (ranges : CodeRanges) (c : Char) : Bool :=
  ranges.any fun range => range.1 ≤ c.toNat && c.toNat ≤ range.2

end RowInference.Text
