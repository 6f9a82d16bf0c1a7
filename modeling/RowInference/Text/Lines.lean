/-! # Lines of a text

A line ends at a line feed, and a carriage return just before the line feed belongs to the line end. A text
that ends in a line feed has no further, empty line after it.
-/

namespace RowInference.Text

/-- Split at line feeds; the second argument is the current line, last character first. -/
def splitLines : List Char → List Char → List (List Char)
  | [], [] => []
  | [], line => [line.reverse]
  | '\n' :: rest, line =>
    let line := match line with
      | '\r' :: before => before
      | line => line
    line.reverse :: splitLines rest []
  | c :: rest, line => splitLines rest (c :: line)

/-- The lines of a text, without their ends. -/
def lines (text : String) : List String := (splitLines text.toList []).map String.ofList

end RowInference.Text
