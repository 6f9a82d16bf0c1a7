import RowInference.Diagnostic.Basic
import RowInference.Text.Lines

/-! # Diagnostics as text

A diagnostic is shown as a header, its place, the lines of source it covers with a marker under the first of them,
and its help. All numbers of lines and columns are 64-bit words. A text has at most so many bytes as a signed word can
count: the program breaks off when it would make a longer one, and it leaves nothing behind then. A machine may run
out of memory long before; that is not described here.
-/

namespace RowInference

namespace Text

/-- The most bytes that a text can have. -/
def capacity : Nat := 0x7FFFFFFFFFFFFFFF

/-- The text, if it can be made. -/
def made? (text : String) : Option String := if text.utf8ByteSize ≤ capacity then some text else none

end Text

structure TextStyle where
  colors : Bool := true
  showSource : Bool := true
  showHelp : Bool := true
  indicator : Char := '^'
  /-- How many lines of source are shown at most. -/
  maxLines : UInt64 := 6
deriving Repr

/-- A source text, if its content is known, with the name to show for it. -/
structure Source where
  name : String
  content : Option String := none

namespace TextStyle

/-- Put text between the terminal's code for an appearance and the code that ends it. -/
def paint (style : TextStyle) (code text : String) : String :=
  if style.colors then "\x1b[" ++ code ++ "m" ++ text ++ "\x1b[0m" else text

end TextStyle

def Severity.color : Severity → String
  | error => "31"
  | warning => "33"
  | info => "34"
  | hint => "36"

namespace Span

/-- The last line of a span; one that ends before it starts covers its first line. -/
def lastLine (span : Span) : UInt64 := max span.stop.line span.start.line

/-- How many lines of a span are shown, if the source has them. -/
def shownLines (span : Span) (maxLines : UInt64) : UInt64 :=
  min (span.lastLine - span.start.line + 1) maxLines

def markerColumn (span : Span) : UInt64 := max span.start.column 1

/-- The difference of two words, or zero if it would be negative. -/
def minusToZero (a b : UInt64) : UInt64 := if b ≤ a then a - b else 0

/-- How wide the marker under the first line is. It ends where the span ends, or at the end of a line of `bytes`
bytes if the span goes on after it. -/
def markerWidth (span : Span) (bytes : UInt64) : UInt64 :=
  if span.start.line = span.lastLine then max (minusToZero span.stop.column span.markerColumn) 1
  else max (minusToZero bytes (span.markerColumn - 1)) 1

end Span

namespace Diagnostic

def header (style : TextStyle) (diagnostic : Diagnostic) : String :=
  let severity := style.paint diagnostic.severity.color diagnostic.severity.name
  if diagnostic.code.isEmpty then severity ++ ": " ++ diagnostic.message ++ "\n"
  else severity ++ " [" ++ style.paint "1" diagnostic.code ++ "] " ++ diagnostic.message ++ "\n"

def location (diagnostic : Diagnostic) (source : Option Source) : String :=
  match diagnostic.span with
  | none => ""
  | some span =>
    if span.isDummy then ""
    else
      let name := match source with
        | some source => source.name
        | none => "<unknown>"
      " --> " ++ name ++ ":" ++ span.start.text ++ "\n"

/-- A character repeated a number of times, if the text can be made. -/
def repeated? (c : Char) (count : UInt64) : Option String :=
  if c.utf8Size * count.toNat ≤ Text.capacity then some (String.ofList (List.replicate count.toNat c)) else none

/-- A line of source behind its number, which is right-aligned to four columns. -/
def numberedLine (number : UInt64) (line : String) : String :=
  let digits := toString number.toNat
  String.ofList (List.replicate (4 - digits.length) ' ') ++ digits ++ " | " ++ line ++ "\n"

/-- The line that marks the place under the first line of source, if it can be made. -/
def markerLine? (style : TextStyle) (span : Span) (line : String) : Option String := do
  let marker ← repeated? style.indicator (span.markerWidth (UInt64.ofNat line.utf8ByteSize))
  let left ← repeated? ' ' (span.markerColumn - 1)
  Text.made? ("     | " ++ left ++ style.paint "31" marker ++ "\n")

/-- Lines of source with their numbers, counted from the given one. -/
def numberedLines (first : UInt64) : List String → List String
  | [] => []
  | line :: rest => numberedLine first line :: numberedLines (first + 1) rest

/-- The lines of source that a span covers, with the marker behind the first one, if it can be made. -/
def snippetLines? (style : TextStyle) (span : Span) (content : String) : Option (List String) :=
  let lines := (Text.lines content).drop (span.start.line - 1).toNat
  match lines.take (span.shownLines style.maxLines).toNat with
  | [] => some []
  | line :: rest => do
    let marker ← markerLine? style span line
    return numberedLine span.start.line line :: marker :: numberedLines (span.start.line + 1) rest

/-- The snippet of source, as far as place and source are known; `none` if it cannot be made. -/
def snippet? (style : TextStyle) (diagnostic : Diagnostic) (source : Option Source) : Option String :=
  match diagnostic.span, source.bind Source.content with
  | some span, some content =>
    if span.isDummy then some ""
    else (snippetLines? style span content).bind fun lines => Text.made? (String.join lines)
  | _, _ => some ""

/-- The whole text of a diagnostic; `none` if it cannot be made. -/
def render? (style : TextStyle) (diagnostic : Diagnostic) (source : Option Source := none) : Option String := do
  let snippet ← if style.showSource then diagnostic.snippet? style source else some ""
  let help := if style.showHelp && !diagnostic.help.isEmpty then
    style.paint "1" "help" ++ ": " ++ diagnostic.help ++ "\n" else ""
  Text.made? (diagnostic.header style ++ diagnostic.location source ++ snippet ++ help)

end Diagnostic

end RowInference
