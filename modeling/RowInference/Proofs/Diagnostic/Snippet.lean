import Mathlib.Data.UInt
import RowInference.Diagnostic.Text

/-! # Snippets of source

The lines of source that a diagnostic shows are numbered by words. Here the same lines are given by natural numbers:
they go from the first line of the span to the last one, or less far if the source ends earlier or not that many lines
are to be shown, and a marker stands behind the first of them. The loop over the lines is also run step by step, with
an arithmetic that gives up when a result is no word and texts that give up when they get too long. The first never
happens. The second happens if the whole snippet is too long, and only then.
-/

namespace RowInference

/-! ## Computations that give up -/

/-- Why a computation gives up: a number is no word, or a text is too long to be made. -/
inductive Halt where
  | overflow
  | tooLong
deriving DecidableEq, Repr

/-- The sum of two words, if it is a word. -/
def checkedAdd (a b : UInt64) : Except Halt UInt64 :=
  if a.toNat + b.toNat < UInt64.size then .ok (a + b) else .error .overflow

/-- The difference of two words, if it is not negative. -/
def checkedSub (a b : UInt64) : Except Halt UInt64 := if b ≤ a then .ok (a - b) else .error .overflow

theorem toNat_add {a b : UInt64} (fits : a.toNat + b.toNat < UInt64.size) : (a + b).toNat = a.toNat + b.toNat := by
  rw [UInt64.toNat_add]
  exact Nat.mod_eq_of_lt fits

/-- Checked addition does not give up where the sum is a word. -/
theorem checkedAdd_eq {a b : UInt64} (fits : a.toNat + b.toNat < UInt64.size) : checkedAdd a b = .ok (a + b) :=
  if_pos fits

theorem checkedSub_eq {a b : UInt64} (le : b.toNat ≤ a.toNat) : checkedSub a b = .ok (a - b) :=
  if_pos (UInt64.le_iff_toNat_le.mpr le)

namespace Text

/-- Put text behind a text, if the whole is not too long. -/
def push (output text : String) : Except Halt String :=
  if output.utf8ByteSize + text.utf8ByteSize ≤ capacity then .ok (output ++ text) else .error .tooLong

/-- A character repeated a number of times, if that is not too long. -/
def checkedRepeat (c : Char) (count : UInt64) : Except Halt String :=
  if c.utf8Size * count.toNat ≤ capacity then .ok (String.ofList (List.replicate count.toNat c)) else .error .tooLong

theorem utf8ByteSize_replicate (c : Char) (count : Nat) :
    (String.ofList (List.replicate count c)).utf8ByteSize = c.utf8Size * count := by
  induction count with
  | zero => rfl
  | succ count ih =>
    rw [List.replicate_succ, String.ofList_cons, String.utf8ByteSize_append, String.utf8ByteSize_singleton, ih]
    grind

variable {output text : String} {next : String → Except Halt String}

theorem push_empty (text : String) :
    push "" text = if text.utf8ByteSize ≤ capacity then .ok text else .error .tooLong := by
  rw [push, String.utf8ByteSize_empty, Nat.zero_add, String.empty_append]

theorem push_nothing (fits : output.utf8ByteSize ≤ capacity) : push output "" = .ok output := by
  rw [push, String.utf8ByteSize_empty, Nat.add_zero, if_pos fits, String.append_empty]

/-- Two texts one after the other, where what follows the first is put behind it. -/
theorem push_bind {more : String} (onward : (output ++ text).utf8ByteSize ≤ capacity →
    next (output ++ text) = push (output ++ text) more) : (push output text >>= next) = push output (text ++ more) := by
  by_cases fits : output.utf8ByteSize + text.utf8ByteSize ≤ capacity
  · rw [push, if_pos fits]
    change next (output ++ text) = _
    rw [onward (by rwa [String.utf8ByteSize_append]), push, push, String.utf8ByteSize_append,
      String.utf8ByteSize_append, Nat.add_assoc, String.append_assoc]
  · have long : ¬output.utf8ByteSize + (text ++ more).utf8ByteSize ≤ capacity := by
      rw [String.utf8ByteSize_append]
      omega
    rw [push, if_neg fits, push, if_neg long]
    rfl

/-- A text that is made first and put behind another one then. -/
theorem push_empty_bind (output text : String) : (push "" text >>= push output) = push output text := by
  rw [push_empty]
  split
  · rfl
  · rw [push, if_neg (by omega)]
    rfl

/-- A repeated character that becomes part of a text is too long only if the text is. -/
theorem checkedRepeat_bind {c : Char} {count : UInt64}
    (onward : next (String.ofList (List.replicate count.toNat c)) = push output text)
    (part : c.utf8Size * count.toNat ≤ text.utf8ByteSize) : (checkedRepeat c count >>= next) = push output text := by
  by_cases fits : c.utf8Size * count.toNat ≤ capacity
  · rw [checkedRepeat, if_pos fits]
    exact onward
  · rw [checkedRepeat, if_neg fits, push, if_neg (by omega)]
    rfl

end Text

namespace Span

variable {span : Span}

/-- A place that is known is on a line with a positive number. -/
theorem start_pos (known : span.isDummy = false) : 0 < span.start.line.toNat := by
  rw [isDummy, beq_eq_false_iff_ne] at known
  exact Nat.pos_of_ne_zero fun zero => known (UInt64.toNat_inj.mp zero)

theorem toNat_lastLine (span : Span) : span.lastLine.toNat = max span.start.line.toNat span.stop.line.toNat := by
  rw [lastLine, UInt64.toNat_max, Nat.max_comm]

theorem start_le_lastLine (span : Span) : span.start.line.toNat ≤ span.lastLine.toNat := by
  rw [toNat_lastLine]
  omega

theorem one_le_markerColumn (span : Span) : (1 : UInt64).toNat ≤ span.markerColumn.toNat := by
  rw [markerColumn, UInt64.toNat_max]
  exact Nat.le_max_right ..

/-- The marker is at least one character wide. -/
theorem one_le_markerWidth (span : Span) (bytes : UInt64) : 1 ≤ (span.markerWidth bytes).toNat := by
  rw [markerWidth]
  split <;> rw [UInt64.toNat_max] <;> exact Nat.le_max_right ..

/-- How many lines there are from the first to the last one. -/
theorem toNat_lineCount (known : span.isDummy = false) :
    (span.lastLine - span.start.line).toNat = span.lastLine.toNat - span.start.line.toNat ∧
      span.lastLine.toNat - span.start.line.toNat + 1 < UInt64.size := by
  have := start_pos known
  have := span.start_le_lastLine
  have := span.lastLine.toNat_lt_size
  exact ⟨UInt64.toNat_sub_of_le _ _ (UInt64.le_iff_toNat_le.mpr span.start_le_lastLine), by omega⟩

/-- The last line that is shown of a source with a number of lines; it comes before the first line if none is shown. -/
def lastShown (span : Span) (maxLines total : Nat) : Nat :=
  min (max span.start.line.toNat span.stop.line.toNat) (min (span.start.line.toNat + maxLines - 1) total)

/-- The numbers of the lines that are shown, in order. -/
def shownNumbers (span : Span) (maxLines total : Nat) : List Nat :=
  List.range' span.start.line.toNat (span.lastShown maxLines total + 1 - span.start.line.toNat)

/-- No line is shown if the source ends before the span or none may be shown. -/
theorem shownNumbers_eq_nil (known : span.isDummy = false) {maxLines total : Nat}
    (outside : total < span.start.line.toNat ∨ maxLines = 0) : span.shownNumbers maxLines total = [] := by
  have positive := start_pos known
  rw [shownNumbers, List.range'_eq_nil_iff, lastShown]
  omega

/-- How many lines are to be shown, in natural numbers. -/
theorem toNat_shownLines (known : span.isDummy = false) (maxLines : UInt64) :
    (span.shownLines maxLines).toNat = min (span.lastLine.toNat - span.start.line.toNat + 1) maxLines.toNat := by
  obtain ⟨difference, fits⟩ := toNat_lineCount known
  rw [shownLines, UInt64.toNat_min, toNat_add (by rw [difference]; exact fits), difference]
  rfl

end Span

namespace Diagnostic

variable {style : TextStyle} {span : Span} {lines : List String}

/-! ## Numbered lines -/

/-- A line of source behind its number, which is right-aligned to four columns. -/
def textLine (number : Nat) (line : String) : String :=
  String.ofList (List.replicate (4 - (toString number).length) ' ') ++ toString number ++ " | " ++ line ++ "\n"

/-- Lines of source with their numbers, counted from the given one. -/
def textLines (first : Nat) (lines : List String) : List String :=
  (lines.zipIdx first).map fun entry => textLine entry.2 entry.1

/-- A marker that starts at the column of the span and has a given width. -/
def markerText (style : TextStyle) (span : Span) (width : Nat) : String :=
  "     | " ++ String.ofList (List.replicate (max span.start.column.toNat 1 - 1) ' ')
    ++ style.paint "31" (String.ofList (List.replicate width style.indicator)) ++ "\n"

def markerWidth (span : Span) (line : String) : Nat := (span.markerWidth (UInt64.ofNat line.utf8ByteSize)).toNat

/-- Lines of source with their numbers, and the marker behind the first one. -/
def markedLines (style : TextStyle) (span : Span) (first : Nat) : List String → List String
  | [] => []
  | line :: rest =>
    textLine first line :: markerText style span (markerWidth span line) :: textLines (first + 1) rest

theorem numberedLine_eq (number : UInt64) (line : String) : numberedLine number line = textLine number.toNat line := rfl

theorem textLines_cons (first : Nat) (line : String) (rest : List String) :
    textLines first (line :: rest) = textLine first line :: textLines (first + 1) rest := rfl

/-- Counting on in words is counting, as long as the last number is a word. -/
theorem numberedLines_succ (first : UInt64) (lines : List String) (fits : first.toNat + lines.length < UInt64.size) :
    numberedLines (first + 1) lines = textLines (first.toNat + 1) lines := by
  induction lines generalizing first with
  | nil => rfl
  | cons line rest ih =>
    rw [List.length_cons] at fits
    have next : (first + 1).toNat = first.toNat + 1 := toNat_add (by rw [UInt64.toNat_one]; omega)
    rw [numberedLines, numberedLine_eq, next, ih (first + 1) (by rw [next]; omega), next, textLines_cons]

/-! ## The marker -/

theorem toNat_markerColumn (span : Span) : (span.markerColumn - 1).toNat = max span.start.column.toNat 1 - 1 := by
  rw [UInt64.toNat_sub_of_le _ _ (UInt64.le_iff_toNat_le.mpr span.one_le_markerColumn), Span.markerColumn,
    UInt64.toNat_max]
  rfl

/-- Paint only adds to a text. -/
theorem utf8ByteSize_le_paint (style : TextStyle) (code text : String) :
    text.utf8ByteSize ≤ (style.paint code text).utf8ByteSize := by
  rw [TextStyle.paint]
  split
  · simp only [String.utf8ByteSize_append]
    omega
  · exact Nat.le_refl _

/-- Both the marker and the blanks before it are parts of the line. -/
theorem parts_le_markerText (style : TextStyle) (span : Span) (width : Nat) :
    style.indicator.utf8Size * width ≤ (markerText style span width).utf8ByteSize ∧
      ' '.utf8Size * (max span.start.column.toNat 1 - 1) ≤ (markerText style span width).utf8ByteSize := by
  have painted := utf8ByteSize_le_paint style "31" (String.ofList (List.replicate width style.indicator))
  rw [Text.utf8ByteSize_replicate] at painted
  simp only [markerText, String.utf8ByteSize_append, Text.utf8ByteSize_replicate]
  omega

/-- A repeated character that becomes part of a text can be made if the text can. -/
theorem repeated?_bind {c : Char} {count : UInt64} {next : String → Option String} {text : String}
    (onward : next (String.ofList (List.replicate count.toNat c)) = Text.made? text)
    (part : c.utf8Size * count.toNat ≤ text.utf8ByteSize) : (repeated? c count).bind next = Text.made? text := by
  by_cases fits : c.utf8Size * count.toNat ≤ Text.capacity
  · rw [repeated?, if_pos fits]
    exact onward
  · rw [repeated?, if_neg fits, Text.made?, if_neg (by omega)]
    rfl

/-- The line with the marker can be made if it is not too long. -/
theorem markerLine?_eq (style : TextStyle) (span : Span) (line : String) :
    markerLine? style span line = Text.made? (markerText style span (markerWidth span line)) := by
  obtain ⟨marker, blanks⟩ := parts_le_markerText style span (markerWidth span line)
  refine repeated?_bind (repeated?_bind ?_ ?_) marker
  · rw [toNat_markerColumn]
    rfl
  · rwa [toNat_markerColumn]

/-- The lines of source from the first line of the span on, as many as are to be shown. -/
def shownSource (style : TextStyle) (span : Span) (content : String) : List String :=
  ((Text.lines content).drop (span.start.line.toNat - 1)).take (span.shownLines style.maxLines).toNat

/-- The snippet can be made if it is not too long. -/
theorem snippetLines?_bind (style : TextStyle) (known : span.isDummy = false) (content : String) :
    ((snippetLines? style span content).bind fun lines => Text.made? (String.join lines)) =
      Text.made? (String.join (markedLines style span span.start.line.toNat (shownSource style span content))) := by
  have positive := Span.start_pos known
  have index : (span.start.line - 1).toNat = span.start.line.toNat - 1 :=
    UInt64.toNat_sub_of_le _ _ (UInt64.le_iff_toNat_le.mpr positive)
  rw [snippetLines?, index, ← shownSource]
  cases shown : shownSource style span content with
  | nil => rfl
  | cons line rest =>
    -- The number of the last line shown is at most that of the last line of the span, which is a word.
    have length := congrArg List.length shown
    rw [shownSource, List.length_take, List.length_cons, Span.toNat_shownLines known] at length
    have first := span.start_le_lastLine
    have last := span.lastLine.toNat_lt_size
    have numbered := numberedLines_succ span.start.line rest (by omega)
    by_cases fits : (markerText style span (markerWidth span line)).utf8ByteSize ≤ Text.capacity
    · simp only [markerLine?_eq, Text.made?, if_pos fits, markedLines, numberedLine_eq, numbered]
      rfl
    · have long : ¬(String.join (markedLines style span span.start.line.toNat (line :: rest))).utf8ByteSize
          ≤ Text.capacity := by
        simp only [markedLines, String.join_cons, String.utf8ByteSize_append]
        omega
      simp only [markerLine?_eq, Text.made?, if_neg fits, if_neg long]
      rfl

/-! ## The loop over the lines -/

def checkedWidth (span : Span) (bytes : UInt64) : Except Halt UInt64 :=
  if span.start.line = span.lastLine then .ok (max (Span.minusToZero span.stop.column span.markerColumn) 1)
  else do
    let left ← checkedSub span.markerColumn 1
    return max (Span.minusToZero bytes left) 1

def checkedMarker (style : TextStyle) (span : Span) (line : String) : Except Halt String := do
  let width ← checkedWidth span (UInt64.ofNat line.utf8ByteSize)
  let marker ← Text.checkedRepeat style.indicator width
  let left ← checkedSub span.markerColumn 1
  let blanks ← Text.checkedRepeat ' ' left
  Text.push "" ("     | " ++ blanks ++ style.paint "31" marker ++ "\n")

/-- Write a line behind what has been written, and the marker behind it if it is the first one. -/
def writeLine (style : TextStyle) (span : Span) (number index : UInt64) (line output : String) :
    Except Halt String := do
  let output ← Text.push output (numberedLine number line)
  if index = 0 then checkedMarker style span line >>= Text.push output else pure output

/-- The lines from a given index on, of which at most a given number remains to be shown, put behind what has been
written. The lines end where the source does. -/
def checkedLines (style : TextStyle) (span : Span) (lines : List String) :
    Nat → UInt64 → String → Except Halt String
  | 0, _, output => .ok output
  | remaining + 1, index, output => do
    let number ← checkedAdd span.start.line index
    let place ← checkedSub number 1
    match lines[place.toNat]? with
    | none => return output
    | some line =>
      let output ← writeLine style span number index line output
      let next ← checkedAdd index 1
      checkedLines style span lines remaining next output

def checkedSnippet (style : TextStyle) (span : Span) (content : String) : Except Halt String := do
  let difference ← checkedSub span.lastLine span.start.line
  let count ← checkedAdd difference 1
  checkedLines style span (Text.lines content) (min count style.maxLines).toNat 0 ""

/-- The line with the marker, made step by step, is the marker as a text, if it can be made. -/
theorem checkedMarker_eq (style : TextStyle) (span : Span) (line : String) :
    checkedMarker style span line = Text.push "" (markerText style span (markerWidth span line)) := by
  obtain ⟨marker, blanks⟩ := parts_le_markerText style span (markerWidth span line)
  have left : checkedSub span.markerColumn 1 = .ok (span.markerColumn - 1) := checkedSub_eq span.one_le_markerColumn
  have width (bytes : UInt64) : checkedWidth span bytes = .ok (span.markerWidth bytes) := by
    rw [checkedWidth, left, Span.markerWidth]
    split <;> rfl
  rw [checkedMarker, width, left]
  refine Text.checkedRepeat_bind (Text.checkedRepeat_bind ?_ ?_) marker
  · rw [toNat_markerColumn]
    rfl
  · rwa [toNat_markerColumn]

/-- What stands behind the line with a given index: the marker, if it is the first one. -/
def behindLine (style : TextStyle) (span : Span) (index : UInt64) (line : String) : String :=
  if index = 0 then markerText style span (markerWidth span line) else ""

/-- A line and what stands behind it are put behind the output like one text. -/
theorem writeLine_eq (style : TextStyle) (span : Span) (number index : UInt64) (line output : String) :
    writeLine style span number index line output =
      Text.push output (textLine number.toNat line ++ behindLine style span index line) := by
  refine Text.push_bind fun fits => ?_
  rw [behindLine]
  split
  · rw [checkedMarker_eq, Text.push_empty_bind]
  · exact (Text.push_nothing fits).symm

section Loop

variable (style) (lines) (known : span.isDummy = false)

include known

/-- One round of the loop: a line that the source has is written, and the loop goes on. -/
theorem checkedLines_succ (remaining : Nat) {index : UInt64} (fits : span.start.line.toNat + index.toNat < UInt64.size)
    (output : String) : checkedLines style span lines (remaining + 1) index output =
      match lines[span.start.line.toNat + index.toNat - 1]? with
      | none => .ok output
      | some line => Text.push output (textLine (span.start.line.toNat + index.toNat) line
          ++ behindLine style span index line) >>= checkedLines style span lines remaining (index + 1) := by
  have positive := Span.start_pos known
  have number : (span.start.line + index).toNat = span.start.line.toNat + index.toNat := toNat_add fits
  have one : (1 : UInt64).toNat ≤ (span.start.line + index).toNat := by
    rw [number, UInt64.toNat_one]
    omega
  have place : (span.start.line + index - 1).toNat = span.start.line.toNat + index.toNat - 1 := by
    rw [UInt64.toNat_sub_of_le _ _ (UInt64.le_iff_toNat_le.mpr one), number, UInt64.toNat_one]
  have next : checkedAdd index 1 = .ok (index + 1) := checkedAdd_eq (by rw [UInt64.toNat_one]; omega)
  rw [checkedLines, checkedAdd_eq fits]
  change (checkedSub (span.start.line + index) 1 >>= _) = _
  rw [checkedSub_eq one]
  change (match lines[(span.start.line + index - 1).toNat]? with | none => _ | some line => _) = _
  rw [place]
  cases lines[span.start.line.toNat + index.toNat - 1]? with
  | none => rfl
  | some line =>
    dsimp only
    rw [← number, ← writeLine_eq, next]
    rfl

/-- Behind the first line the loop writes the lines with their numbers, up to the end of the source. -/
theorem checkedLines_later (remaining : Nat) {index : UInt64} (later : index ≠ 0)
    (fits : span.start.line.toNat + index.toNat + remaining ≤ UInt64.size) {output : String}
    (short : output.utf8ByteSize ≤ Text.capacity) :
    checkedLines style span lines remaining index output =
      Text.push output (String.join (textLines (span.start.line.toNat + index.toNat)
        ((lines.drop (span.start.line.toNat + index.toNat - 1)).take remaining))) := by
  have positive := Span.start_pos known
  -- With each round the index grows by what the remaining rounds lose, so that the numbers to come stay words.
  induction remaining generalizing index output with
  | zero => exact (Text.push_nothing short).symm
  | succ remaining ih =>
    rw [checkedLines_succ style lines known remaining (by omega)]
    cases found : lines[span.start.line.toNat + index.toNat - 1]? with
    | none =>
      rw [List.drop_eq_nil_of_le (List.getElem?_eq_none_iff.mp found), List.take_nil]
      exact (Text.push_nothing short).symm
    | some line =>
      have next : (index + 1).toNat = index.toNat + 1 := toNat_add (by rw [UInt64.toNat_one]; omega)
      have nonzero : index + 1 ≠ 0 := fun zero => by simp [zero] at next
      have place : span.start.line.toNat + (index.toNat + 1) - 1 = span.start.line.toNat + index.toNat - 1 + 1 := by
        omega
      obtain ⟨inside, rfl⟩ := List.getElem?_eq_some_iff.mp found
      dsimp only
      rw [List.drop_eq_getElem_cons inside, List.take_succ_cons, textLines_cons, String.join_cons, behindLine,
        if_neg later, String.append_empty]
      refine Text.push_bind fun written => ?_
      rw [ih nonzero (by omega) written, next, place]
      rfl

/-- The loop from its start, on an empty output. -/
theorem checkedLines_zero (remaining : Nat) (fits : span.start.line.toNat + remaining ≤ UInt64.size) :
    checkedLines style span lines remaining 0 "" = Text.push "" (String.join (markedLines style span
      span.start.line.toNat ((lines.drop (span.start.line.toNat - 1)).take remaining))) := by
  have positive := Span.start_pos known
  have short : "".utf8ByteSize ≤ Text.capacity := by decide
  cases remaining with
  | zero => exact (Text.push_nothing short).symm
  | succ remaining =>
    rw [checkedLines_succ style lines known remaining (by rw [UInt64.toNat_zero]; omega), UInt64.toNat_zero,
      Nat.add_zero]
    cases found : lines[span.start.line.toNat - 1]? with
    | none =>
      rw [List.drop_eq_nil_of_le (List.getElem?_eq_none_iff.mp found), List.take_nil]
      exact (Text.push_nothing short).symm
    | some line =>
      obtain ⟨inside, rfl⟩ := List.getElem?_eq_some_iff.mp found
      rw [List.drop_eq_getElem_cons inside, List.take_succ_cons, markedLines, String.join_cons, String.join_cons,
        ← String.append_assoc]
      refine Text.push_bind fun written => ?_
      have onward := checkedLines_later style lines known remaining (by decide : (1 : UInt64) ≠ 0)
        (by rw [UInt64.toNat_one]; omega) written
      have place : span.start.line.toNat + 1 - 1 = span.start.line.toNat - 1 + 1 := by omega
      rw [UInt64.toNat_one, place] at onward
      exact onward

/-- No result in the loop fails to be a word, and what the loop writes is the snippet, if it is not too long. -/
theorem checkedSnippet_eq (content : String) : checkedSnippet style span content =
    Text.push "" (String.join (markedLines style span span.start.line.toNat (shownSource style span content))) := by
  obtain ⟨difference, fits⟩ := Span.toNat_lineCount known
  have first := span.start_le_lastLine
  have last := span.lastLine.toNat_lt_size
  have positive := Span.start_pos known
  have shown := Span.toNat_shownLines known style.maxLines
  have count : checkedAdd (span.lastLine - span.start.line) 1 = .ok (span.lastLine - span.start.line + 1) :=
    checkedAdd_eq (by rw [difference]; exact fits)
  have loop := checkedLines_zero style (Text.lines content) known (span.shownLines style.maxLines).toNat (by omega)
  rw [checkedSnippet, checkedSub_eq first]
  change (checkedAdd (span.lastLine - span.start.line) 1 >>= _) = _
  rw [count]
  exact loop

end Loop

/-! ## The lines that are shown -/

/-- The line of a source with a given number, counted from 1. -/
def lineAt (lines : List String) (number : Nat) : String := (lines[number - 1]?).getD ""

/-- A text put behind the first line, if there are lines. -/
def behindFirst (text : String) : List String → List String
  | [] => []
  | first :: rest => first :: text :: rest

/-- Lines taken from a source are the lines with consecutive numbers. -/
theorem textLines_eq {first : Nat} (positive : 0 < first) (lines : List String) (count : Nat) :
    textLines first ((lines.drop (first - 1)).take count) =
      (List.range' first (min count (lines.length + 1 - first))).map fun number =>
        textLine number (lineAt lines number) := by
  apply List.ext_getElem
  · simp only [textLines, List.length_map, List.length_zipIdx, List.length_take, List.length_drop, List.length_range']
    omega
  · intro index inLines inNumbers
    simp only [textLines, List.length_map, List.length_zipIdx, List.length_take, List.length_drop] at inLines
    have place : first + index - 1 = first - 1 + index := by omega
    have inside : first - 1 + index < lines.length := by omega
    simp [textLines, lineAt, place, inside]

/-- The marker belongs to the first line. -/
theorem markedLines_eq (style : TextStyle) (span : Span) (first : Nat) (lines : List String) (count : Nat) :
    markedLines style span first ((lines.drop (first - 1)).take count) =
      behindFirst (markerText style span (markerWidth span (lineAt lines first)))
        (textLines first ((lines.drop (first - 1)).take count)) := by
  cases shown : (lines.drop (first - 1)).take count with
  | nil => rfl
  | cons line rest =>
    have head := congrArg List.head? shown
    rw [List.head?_take, List.head?_cons] at head
    obtain ⟨_, head⟩ := Option.ite_none_left_eq_some.mp head
    rw [lineAt, ← List.head?_drop, head]
    rfl

/-- The numbers of the lines that are shown are consecutive, from the first line of the span on. -/
theorem shownNumbers_eq (known : span.isDummy = false) (maxLines : UInt64) (total : Nat) :
    span.shownNumbers maxLines.toNat total = List.range' span.start.line.toNat
      (min (span.shownLines maxLines).toNat (total + 1 - span.start.line.toNat)) := by
  have positive := Span.start_pos known
  rw [Span.shownNumbers, Span.lastShown, Span.toNat_shownLines known, Span.toNat_lastLine]
  congr 1
  omega

/-- The lines of a span that are shown of a source, as many as there are and may be shown, each once and with its
number, and a marker behind the first of them. -/
def snippetText (style : TextStyle) (span : Span) (content : String) : String :=
  let lines := Text.lines content
  String.join (behindFirst (markerText style span (markerWidth span (lineAt lines span.start.line.toNat)))
    ((span.shownNumbers style.maxLines.toNat lines.length).map fun number => textLine number (lineAt lines number)))

/-- The lines with their marker, put together, are the text of the snippet. -/
theorem join_markedLines (known : span.isDummy = false) (style : TextStyle) (content : String) :
    String.join (markedLines style span span.start.line.toNat (shownSource style span content)) =
      snippetText style span content := by
  rw [shownSource, markedLines_eq, textLines_eq (Span.start_pos known), ← shownNumbers_eq known]
  rfl

/-- A snippet shows the lines of a span, as many as there are and may be shown, each once and with its number, and a
marker of at least one character behind the first of them; nothing if there are no such lines. On the way no result
fails to be a word. But where the text is too long to be made, there is no snippet. -/
theorem snippet_shows {diagnostic : Diagnostic} (placed : diagnostic.span = some span) (known : span.isDummy = false)
    (style : TextStyle) (name content : String) :
    let text := snippetText style span content
    let fits := text.utf8ByteSize ≤ Text.capacity
    diagnostic.snippet? style (some ⟨name, some content⟩) = (if fits then some text else none) ∧
      checkedSnippet style span content = (if fits then .ok text else .error .tooLong) ∧
      1 ≤ markerWidth span (lineAt (Text.lines content) span.start.line.toNat) ∧
      ((Text.lines content).length < span.start.line.toNat ∨ style.maxLines.toNat = 0 → text = "") := by
  intro text fits
  refine ⟨?_, ?_, span.one_le_markerWidth _, ?_⟩
  · have made := snippetLines?_bind style known content
    rw [join_markedLines known, Text.made?] at made
    simpa [snippet?, placed, known] using made
  · rw [checkedSnippet_eq style known, join_markedLines known, Text.push_empty]
  · intro outside
    have none : span.shownNumbers style.maxLines.toNat (Text.lines content).length = [] :=
      Span.shownNumbers_eq_nil known outside
    simp only [text, snippetText, none]
    rfl

/-- A span from an unknown column of the second line to the last line that a word can name. -/
def openEnded : Span := ⟨⟨2, 0, 0⟩, ⟨0xFFFFFFFFFFFFFFFF, 3, 0⟩⟩

theorem snippet_shows_openEnded :
    let diagnostic := { code := "E1002", message := "", span := some openEnded : Diagnostic }
    let style := { colors := false, maxLines := 0xFFFFFFFFFFFFFFFF : TextStyle }
    diagnostic.snippet? style (some ⟨"Main.elm", some "main =\n  if 1\nend\n"⟩) =
      some "   2 |   if 1\n     | ^^^^^^\n   3 | end\n" := by
  intro diagnostic style
  have placed : diagnostic.span = some openEnded := rfl
  have known : openEnded.isDummy = false := rfl
  rw [(snippet_shows placed known style "Main.elm" "main =\n  if 1\nend\n").1]
  decide

/-- A place in the first line behind more columns than a text can have bytes. -/
def farColumn : Span := ⟨⟨1, 0x8000000000000001, 0⟩, ⟨1, 0, 0⟩⟩

/-- The first line should be shown, and all results are words, but there is no snippet. -/
theorem snippet_missing_farColumn :
    let diagnostic := { code := "E1002", message := "", span := some farColumn : Diagnostic }
    let style := { colors := false : TextStyle }
    farColumn.isDummy = false ∧ farColumn.shownNumbers style.maxLines.toNat (Text.lines "x").length = [1] ∧
      diagnostic.snippet? style (some ⟨"Main.elm", some "x"⟩) = none ∧
      checkedSnippet style farColumn "x" = .error .tooLong := by
  exact ⟨by decide, by decide, by decide, rfl⟩

end Diagnostic

end RowInference
