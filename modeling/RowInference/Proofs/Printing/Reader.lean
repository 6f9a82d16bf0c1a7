import RowInference.Proofs.Printing.Names
import Mathlib.Data.List.TakeWhile

/-! # Reading printed types

A printed type can be read back: the reader below inverts printing, whatever text follows. It shows that the text alone
tells tuples from types in parentheses and open records from closed ones, and which arrow is the outermost.
-/

namespace RowInference

/-- Reads something at the beginning of a text and leaves the rest. -/
abbrev Reader (α : Type) := List Char → Option (α × List Char)

def expect (text : String) (input : List Char) : Option (List Char) := input.dropPrefix? text.toList

namespace Reader

/-- A word, which is not empty. -/
def word : Reader (List Char) := fun input =>
  if input.takeWhile isWordChar = [] then none else some (input.takeWhile isWordChar, input.dropWhile isWordChar)

/-- The types that are printed as words. -/
def atoms : List (List Char × Ty) :=
  [("Bool".toList, .bool), ("Char".toList, .char), ("String".toList, .string), ("Int".toList, .int),
    ("Float".toList, .float)]

/-- The type for which a word stands: a variable, unless it is the name of a type. -/
def ofWord (word : List Char) : Ty := (atoms.lookup word).getD (.var ⟨.named (String.ofList word), classOf word⟩)

section

variable (top : Reader Ty)

def parenthesized : Reader Ty := fun input => do
  let (type, rest) ← top input
  let rest ← expect ")" rest
  some (type, rest)

def tuple : Reader Ty := fun input => do
  let rest ← expect " " input
  let (first, rest) ← top rest
  let rest ← expect ", " rest
  let (second, rest) ← top rest
  match expect ", " rest with
  | none =>
    let rest ← expect " )" rest
    some (.tuple first second, rest)
  | some rest =>
    let (third, rest) ← top rest
    let rest ← expect " )" rest
    some (.triple first second third, rest)

def field : Reader (String × Ty) := fun input => do
  let (name, rest) ← word input
  let rest ← expect " : " rest
  let (type, rest) ← top rest
  some ((String.ofList name, type), rest)

def more : Nat → Reader Row
  | 0, _ => none
  | steps + 1, input =>
    match expect ", " input with
    | none => some (.empty, input)
    | some rest => do
      let ((name, type), rest) ← field top rest
      let (row, rest) ← more steps rest
      some (.field name type row, rest)

def fields (steps : Nat) : Reader Row := fun input => do
  let ((name, type), rest) ← field top input
  let (row, rest) ← more top steps rest
  let rest ← expect " \x7d" rest
  some (.field name type row, rest)

def extension (steps : Nat) : Reader Ty := fun input => do
  let rest ← expect " " input
  let (base, rest) ← top rest
  let rest ← expect " | " rest
  let (row, rest) ← fields top steps rest
  some (.extension base row, rest)

def record (steps : Nat) : Reader Ty := fun input => do
  let rest ← expect " " input
  let (row, rest) ← fields top steps rest
  some (.record row, rest)

/-- A type that needs no parentheses anywhere, or has them. -/
def argument (steps : Nat) : Reader Ty
  | '(' :: rest => parenthesized top rest <|> tuple top rest <|> (expect ")" rest).map (Ty.unit, ·)
  | '\x7b' :: rest =>
    extension top steps rest <|> record top steps rest <|> (expect "\x7d" rest).map (Ty.record .empty, ·)
  | input => (word input).map fun (name, rest) => (ofWord name, rest)

end

/-- A list type, or a type that needs no parentheses. -/
def list (argument : Reader Ty) : Reader Ty := fun input =>
  match expect "List " input with
  | none => argument input
  | some rest => do
    let (element, rest) ← argument rest
    some (.list element, rest)

/-- A function type if an arrow follows. -/
def function (arrow top : Reader Ty) : Reader Ty := fun input => do
  let (source, rest) ← arrow input
  match expect " -> " rest with
  | none => some (source, rest)
  | some rest =>
    let (target, rest) ← top rest
    some (.function source target, rest)

/-- A type as it is printed in some place, to a given depth. -/
def read : Nat → PrintContext → Reader Ty
  | 0, _ => fun _ => none
  | fuel + 1, .top => function (read fuel .arrow) (read fuel .top)
  | fuel + 1, .arrow => list (read fuel .argument)
  | fuel + 1, .argument => argument (read fuel .top) fuel

end Reader

/-! ## Texts -/

/-- The rest does not continue a type before it. -/
structure Ends (context : PrintContext) (rest : List Char) : Prop where
  word : ∀ char ∈ rest.head?, isWordChar char = false
  arrow : context = .top → expect " -> " rest = none

/-- With enough fuel, reading takes the text and no more for the type, whatever follows. -/
def Reads (context : PrintContext) (text : List Char) (type : Ty) : Prop :=
  ∃ enough, ∀ fuel ≥ enough, ∀ rest, Ends context rest → Reader.read fuel context (text ++ rest) = some (type, rest)

/-- A word that may be the name of a field. -/
def IsWord (word : List Char) : Prop := word ≠ [] ∧ ∀ char ∈ word, isWordChar char = true

instance (word : List Char) : Decidable (IsWord word) :=
  decidable_of_iff (word ≠ [] ∧ word.all isWordChar = true) (by rw [List.all_eq_true, IsWord])

theorem expect_append (text : String) (rest : List Char) : expect text (text.toList ++ rest) = some rest :=
  List.dropPrefix?_append_of_beq rest (by simp)

/-- Expecting a text takes it away, and fails on any other text. -/
theorem expect_eq_some_iff {text : String} {input rest : List Char} :
    expect text input = some rest ↔ input = text.toList ++ rest := by
  simp [expect, List.dropPrefix?_eq_some_iff]

namespace Ends

variable {context : PrintContext} {rest : List Char}

theorem nil : Ends context [] := ⟨nofun, fun _ => rfl⟩

theorem cons {char : Char} (noWord : isWordChar char = false) (noSpace : char ≠ ' ') : Ends context (char :: rest) :=
  ⟨by simpa using noWord, fun _ => by simp [expect, List.dropPrefix?, noSpace]⟩

theorem space {char : Char} (noArrow : char ≠ '-') : Ends context (' ' :: char :: rest) :=
  ⟨by simp [isWordChar], fun _ => by simp [expect, List.dropPrefix?, noArrow]⟩

/-- Elsewhere an arrow may follow. -/
theorem of_ne_top (inner : context ≠ .top) : Ends context (' ' :: rest) :=
  ⟨by simp [isWordChar], fun top => absurd top inner⟩

end Ends

namespace Reader

/-- A word is read to its end. -/
theorem word_append {word rest : List Char} (isWord : IsWord word) (ends : Ends .argument rest) :
    Reader.word (word ++ rest) = some (word, rest) := by
  have after : rest.takeWhile isWordChar = [] ∧ rest.dropWhile isWordChar = rest := by
    cases rest with
    | nil => exact ⟨rfl, rfl⟩
    | cons char rest => simp [ends.word char rfl]
  simp [Reader.word, List.takeWhile_append_of_pos isWord.2, List.dropWhile_append_of_pos isWord.2, after, isWord.1]

theorem word_append_space {word : List Char} (isWord : IsWord word) (rest : List Char) :
    Reader.word (word ++ ' ' :: rest) = some (word, ' ' :: rest) :=
  word_append isWord (.of_ne_top nofun)

theorem word_eq_none {char : Char} (other : isWordChar char = false) (rest : List Char) :
    word (char :: rest) = none := by
  simp [word, other]

/-- A type begins with a word, a parenthesis or a brace. -/
theorem read_eq_none (char : Char) (noWord : isWordChar char = false) (noParen : char ≠ '(') (noBrace : char ≠ '\x7b')
    (rest : List Char) (fuel : Nat) (context : PrintContext) : read fuel context (char :: rest) = none := by
  have noList : char ≠ 'L' := by
    rintro rfl
    cases noWord
  induction fuel generalizing context with
  | zero => rfl
  | succ fuel ih =>
    cases context with
    | top => simp [read, function, ih]
    | arrow => simp [read, list, ih, expect, List.dropPrefix?, noList]
    | argument => simp [read, argument, noParen, noBrace, word_eq_none noWord]

/-- A word is read as the type it stands for. -/
theorem argument_word {word rest : List Char} (isWord : IsWord word) (ends : Ends .argument rest) (top : Reader Ty)
    (steps : Nat) : argument top steps (word ++ rest) = some (ofWord word, rest) := by
  have taken := word_append isWord ends
  obtain ⟨char, word, rfl⟩ := List.exists_cons_of_ne_nil isWord.1
  have inWord := isWord.2 char (List.mem_cons_self ..)
  have noParen : char ≠ '(' := by
    rintro rfl
    cases inWord
  have noBrace : char ≠ '\x7b' := by
    rintro rfl
    cases inWord
  rw [List.cons_append] at taken ⊢
  simp [argument, noParen, noBrace, taken]

/-- Read as a type, the name of a field ends before the colon. -/
theorem eq_of_read_name {name rest : List Char} (isWord : IsWord name) {fuel : Nat} {context : PrintContext} {type : Ty}
    {after : List Char} (found : read fuel context (name ++ ' ' :: ':' :: rest) = some (type, after)) :
    after = ' ' :: ':' :: rest := by
  induction fuel generalizing context type after with
  | zero => cases found
  | succ fuel ih =>
    cases context with
    | argument =>
      rw [read, argument_word isWord (.of_ne_top nofun)] at found
      exact (Prod.mk.inj (Option.some.inj found)).2.symm
    | arrow =>
      rw [read, list] at found
      split at found
      · exact ih found
      · next inside isList =>
        -- a field `List`: no type begins with the colon
        have words : word (name ++ ' ' :: ':' :: rest) = some ("List".toList, ' ' :: inside) := by
          have listIsWord : IsWord "List".toList := by decide
          rw [expect_eq_some_iff.mp isList]
          exact word_append_space listIsWord inside
        rw [word_append_space isWord] at words
        obtain rfl : ':' :: rest = inside := (List.cons.inj (Prod.mk.inj (Option.some.inj words)).2).2
        rw [read_eq_none ':' (by decide) (by decide) (by decide)] at found
        cases found
    | top =>
      simp only [read, function, Option.bind_eq_bind, Option.bind_eq_some_iff] at found
      obtain ⟨⟨source, middle⟩, first, found⟩ := found
      obtain rfl := ih first
      simp only [expect, String.reduceToList, List.dropPrefix?] at found
      exact (Prod.mk.inj (Option.some.inj found)).2.symm

/-- The name of a field is not taken for the base of an open record. -/
theorem extension_eq_none {name : List Char} (isWord : IsWord name) (rest : List Char) (fuel steps : Nat) :
    extension (read fuel .top) steps (" ".toList ++ (name ++ (" : ".toList ++ rest))) = none := by
  rw [extension, expect_append]
  cases found : read fuel .top (name ++ (" : ".toList ++ rest)) with
  | none => simp only [Option.bind_eq_bind, Option.bind_some, found, Option.bind_none]
  | some result =>
    obtain ⟨base, after⟩ := result
    obtain rfl : after = ' ' :: ':' :: ' ' :: rest := eq_of_read_name isWord found
    have noBar : expect " | " (' ' :: ':' :: ' ' :: rest) = none := by simp [expect, List.dropPrefix?]
    simp only [Option.bind_eq_bind, Option.bind_some, found, noBar, Option.bind_none]

end Reader

namespace Reads

variable {context : PrintContext} {text text' text'' : List Char} {type type' type'' : Ty}

/-- With one step more than a reading takes there is enough fuel. -/
theorem of_step (enough : Nat) (step : ∀ fuel ≥ enough, ∀ rest, Ends context rest →
    Reader.read (fuel + 1) context (text ++ rest) = some (type, rest)) : Reads context text type := by
  refine ⟨enough + 1, fun fuel large rest ends => ?_⟩
  obtain ⟨fuel, rfl⟩ := Nat.exists_eq_add_of_le' (Nat.one_le_of_lt large)
  exact step fuel (Nat.le_of_succ_le_succ large) rest ends

theorem unit : Reads .argument "()".toList .unit := by
  refine of_step 0 fun fuel _ rest _ => ?_
  have noType : Reader.read fuel .top (')' :: rest) = none :=
    Reader.read_eq_none _ (by decide) (by decide) (by decide) rest fuel .top
  simp [Reader.read, Reader.argument, Reader.parenthesized, Reader.tuple, expect, List.dropPrefix?, noType]

theorem emptyRecord : Reads .argument "\x7b\x7d".toList (.record .empty) := by
  refine of_step 0 fun fuel _ rest _ => ?_
  simp [Reader.read, Reader.argument, Reader.extension, Reader.record, expect, List.dropPrefix?]

theorem word (isWord : IsWord text) : Reads .argument text (Reader.ofWord text) :=
  of_step 0 fun _ _ _ ends => Reader.argument_word isWord ends _ _

/-- Parentheses go around what could stand on its own. -/
theorem parenthesized (reads : Reads .top text type) : Reads .argument ("(".toList ++ (text ++ ")".toList)) type := by
  obtain ⟨enough, reads⟩ := reads
  refine of_step enough fun fuel large rest _ => ?_
  have inside := reads fuel large (')' :: rest) (.cons (by decide) (by decide))
  simp [Reader.read, Reader.argument, Reader.parenthesized, expect, List.dropPrefix?, inside]

theorem tuple (first : Reads .top text type) (second : Reads .top text' type') :
    Reads .argument ("( ".toList ++ (text ++ (", ".toList ++ (text' ++ " )".toList)))) (.tuple type type') := by
  obtain ⟨enough, first⟩ := first
  obtain ⟨enough', second⟩ := second
  refine of_step (max enough enough') fun fuel large rest _ => ?_
  have noType : Reader.read fuel .top (' ' :: (text ++ ',' :: ' ' :: (text' ++ ' ' :: ')' :: rest))) = none :=
    Reader.read_eq_none _ (by decide) (by decide) (by decide) _ fuel .top
  have left := first fuel (le_of_max_le_left large) (',' :: ' ' :: (text' ++ ' ' :: ')' :: rest))
    (.cons (by decide) (by decide))
  have right := second fuel (le_of_max_le_right large) (' ' :: ')' :: rest) (.space (by decide))
  simp [Reader.read, Reader.argument, Reader.parenthesized, Reader.tuple, expect, List.dropPrefix?, noType, left, right]

theorem triple (first : Reads .top text type) (second : Reads .top text' type') (third : Reads .top text'' type'') :
    Reads .argument ("( ".toList ++ (text ++ (", ".toList ++ (text' ++ (", ".toList ++ (text'' ++ " )".toList))))))
      (.triple type type' type'') := by
  obtain ⟨enough, first⟩ := first
  obtain ⟨enough', second⟩ := second
  obtain ⟨enough'', third⟩ := third
  refine of_step (max enough (max enough' enough'')) fun fuel large rest _ => ?_
  have noType := Reader.read_eq_none ' ' (by decide) (by decide) (by decide)
    (text ++ ',' :: ' ' :: (text' ++ ',' :: ' ' :: (text'' ++ ' ' :: ')' :: rest))) fuel .top
  have left := first fuel (by omega) (',' :: ' ' :: (text' ++ ',' :: ' ' :: (text'' ++ ' ' :: ')' :: rest)))
    (.cons (by decide) (by decide))
  have middle := second fuel (by omega) (',' :: ' ' :: (text'' ++ ' ' :: ')' :: rest)) (.cons (by decide) (by decide))
  have right := third fuel (by omega) (' ' :: ')' :: rest) (.space (by decide))
  simp [Reader.read, Reader.argument, Reader.parenthesized, Reader.tuple, expect, List.dropPrefix?, noType, left,
    middle, right]

theorem list (element : Reads .argument text type) : Reads .arrow ("List ".toList ++ text) (.list type) := by
  obtain ⟨enough, element⟩ := element
  refine of_step enough fun fuel large rest ends => ?_
  have inside := element fuel large rest ⟨ends.word, nofun⟩
  rw [Reader.read, Reader.list, List.append_assoc, expect_append]
  simp [inside]

/-- Left of an arrow, only list types begin with the word for lists. -/
theorem arrow (reads : Reads .argument text type) (begins : ∃ char after, text = char :: after ∧ char ≠ 'L') :
    Reads .arrow text type := by
  obtain ⟨enough, reads⟩ := reads
  obtain ⟨char, after, rfl, noList⟩ := begins
  refine of_step enough fun fuel large rest ends => ?_
  have other : expect "List " (char :: after ++ rest) = none := by simp [expect, List.dropPrefix?, noList]
  rw [Reader.read, Reader.list, other]
  exact reads fuel large rest ⟨ends.word, nofun⟩

/-- A function type is read to its arrow and then on. -/
theorem function (source : Reads .arrow text type) (target : Reads .top text' type') :
    Reads .top (text ++ (" -> ".toList ++ text')) (.function type type') := by
  obtain ⟨enough, source⟩ := source
  obtain ⟨enough', target⟩ := target
  refine of_step (max enough enough') fun fuel large rest ends => ?_
  have left := source fuel (le_of_max_le_left large) (" -> ".toList ++ (text' ++ rest)) (.of_ne_top nofun)
  have right := target fuel (le_of_max_le_right large) rest ends
  rw [Reader.read, Reader.function, List.append_assoc, List.append_assoc, left]
  simp only [Option.bind_eq_bind, Option.bind_some, expect_append, right]

/-- What can stand left of an arrow can stand on its own. -/
theorem top (reads : Reads .arrow text type) : Reads .top text type := by
  obtain ⟨enough, reads⟩ := reads
  refine of_step enough fun fuel large rest ends => ?_
  have whole := reads fuel large rest ⟨ends.word, nofun⟩
  rw [Reader.read, Reader.function, whole]
  simp only [Option.bind_eq_bind, Option.bind_some, ends.arrow rfl]

/-- What can be an argument can stand anywhere, unless it begins like a list type. -/
theorem everywhere (reads : Reads .argument text type) (begins : ∃ char after, text = char :: after ∧ char ≠ 'L') :
    ∀ context, Reads context text type
  | .argument => reads
  | .arrow => reads.arrow begins
  | .top => (reads.arrow begins).top

theorem atom (isAtom : (text, type) ∈ Reader.atoms) (context : PrintContext) : Reads context text type := by
  have words : ∀ entry ∈ Reader.atoms, IsWord entry.1 ∧ Reader.ofWord entry.1 = entry.2 ∧ entry.1.head? ≠ some 'L' := by
    decide
  obtain ⟨isWord, rfl, first⟩ : IsWord text ∧ Reader.ofWord text = type ∧ text.head? ≠ some 'L' := words _ isAtom
  refine (word isWord).everywhere ?_ context
  obtain ⟨char, after, shape⟩ := List.exists_cons_of_ne_nil isWord.1
  rw [shape] at first
  exact ⟨char, after, shape, fun same => first (congrArg some same)⟩

end Reads

/-! ## Fields -/

/-- Reading takes the text for further fields if the record ends after it. -/
structure ReadsMore (text : List Char) (row : Row) : Prop where
  ends : ∀ rest, Ends .top (text ++ (" \x7d".toList ++ rest))
  reads : ∃ enough, ∀ fuel ≥ enough, ∀ steps ≥ enough, ∀ rest,
    Reader.more (Reader.read fuel .top) steps (text ++ (" \x7d".toList ++ rest)) = some (row, " \x7d".toList ++ rest)

section Fields

variable {name text text' text'' : List Char} {type base : Ty} {row : Row}

/-- A field is read to the end of its type. -/
theorem Reads.field (isWord : IsWord name) (reads : Reads .top text type) : ∃ enough, ∀ fuel ≥ enough, ∀ rest,
    Ends .top rest → Reader.field (Reader.read fuel .top) (name ++ (" : ".toList ++ (text ++ rest))) =
      some ((String.ofList name, type), rest) := by
  obtain ⟨enough, reads⟩ := reads
  refine ⟨enough, fun fuel large rest ends => ?_⟩
  have taken : Reader.word (name ++ (" : ".toList ++ (text ++ rest))) = some (name, " : ".toList ++ (text ++ rest)) :=
    Reader.word_append_space isWord _
  simp only [Reader.field, taken, Option.bind_eq_bind, Option.bind_some, expect_append, reads fuel large rest ends]

namespace ReadsMore

theorem empty : ReadsMore [] .empty := by
  refine ⟨fun rest => .space (by decide), 1, fun fuel _ steps large rest => ?_⟩
  obtain ⟨steps, rfl⟩ := Nat.exists_eq_add_of_le' large
  simp [Reader.more, expect, List.dropPrefix?]

/-- A field behind a comma, and then further ones. -/
theorem field (isWord : IsWord name) (reads : Reads .top text type) (more : ReadsMore text' row) :
    ReadsMore (", ".toList ++ (name ++ (" : ".toList ++ (text ++ text')))) (.field (String.ofList name) type row) := by
  obtain ⟨enough, first⟩ := reads.field isWord
  obtain ⟨ends, enough', others⟩ := more
  refine ⟨fun rest => .cons (by decide) (by decide), max enough (enough' + 1), fun fuel large steps large' rest => ?_⟩
  obtain ⟨steps, rfl⟩ := Nat.exists_eq_add_of_le' (Nat.one_le_of_lt (le_of_max_le_right large'))
  have here := first fuel (by omega) _ (ends rest)
  have there := others fuel (by omega) steps (by omega) rest
  simp only [Reader.more, List.append_assoc, expect_append, Option.bind_eq_bind, Option.bind_some, here, there]

/-- All fields and the brace. -/
theorem fields (isWord : IsWord name) (reads : Reads .top text type) (more : ReadsMore text' row) :
    ∃ enough, ∀ fuel ≥ enough, ∀ rest, Reader.fields (Reader.read fuel .top) fuel
      (name ++ (" : ".toList ++ (text ++ (text' ++ (" \x7d".toList ++ rest))))) =
        some (.field (String.ofList name) type row, rest) := by
  obtain ⟨enough, first⟩ := reads.field isWord
  obtain ⟨ends, enough', others⟩ := more
  refine ⟨max enough enough', fun fuel large rest => ?_⟩
  have here := first fuel (by omega) _ (ends rest)
  have there := others fuel (by omega) fuel (by omega) rest
  simp only [Reader.fields, expect_append, Option.bind_eq_bind, Option.bind_some, here, there]

theorem record (isWord : IsWord name) (reads : Reads .top text type) (more : ReadsMore text' row) :
    Reads .argument ("\x7b ".toList ++ (name ++ (" : ".toList ++ (text ++ (text' ++ " \x7d".toList)))))
      (.record (.field (String.ofList name) type row)) := by
  obtain ⟨enough, all⟩ := more.fields isWord reads
  refine .of_step enough fun fuel large rest _ => ?_
  have inside := all fuel large rest
  have noBase := Reader.extension_eq_none isWord (text ++ (text' ++ (" \x7d".toList ++ rest))) fuel fuel
  simp only [List.append_assoc]
  change Reader.argument (Reader.read fuel .top) fuel ('\x7b' :: (" ".toList ++ _)) = _
  rw [Reader.argument, noBase, Reader.record, expect_append]
  simp only [Option.bind_eq_bind, Option.bind_some, inside]
  rfl

/-- An open record is read: first what stands before the bar, then the fields. -/
theorem extension (below : Reads .top text'' base) (isWord : IsWord name) (reads : Reads .top text type)
    (more : ReadsMore text' row) :
    Reads .argument
      ("\x7b ".toList ++ (text'' ++ (" | ".toList ++ (name ++ (" : ".toList ++ (text ++ (text' ++ " \x7d".toList)))))))
      (.extension base (.field (String.ofList name) type row)) := by
  obtain ⟨enough, all⟩ := more.fields isWord reads
  obtain ⟨enough', below⟩ := below
  refine .of_step (max enough enough') fun fuel large rest _ => ?_
  have inside := all fuel (by omega) rest
  have before := below fuel (by omega)
    (" | ".toList ++ (name ++ (" : ".toList ++ (text ++ (text' ++ (" \x7d".toList ++ rest)))))) (.space (by decide))
  simp only [List.append_assoc]
  change Reader.argument (Reader.read fuel .top) fuel ('\x7b' :: (" ".toList ++ _)) = _
  rw [Reader.argument, Reader.extension, expect_append]
  simp only [Option.bind_eq_bind, Option.bind_some, before, expect_append, inside]
  rfl

end ReadsMore

end Fields

end RowInference
