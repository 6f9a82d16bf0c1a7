import RowInference.Types.Letters
import Mathlib.Data.List.Induction
import Mathlib.Data.List.Shortlex
import Mathlib.Data.Set.Function

/-! # Words and their numbers

A word over the lower-case letters is a number in base 26 without a zero: its letters are the digits 1 to 26. The word
with a given index reads as the number after it, so that different indices have different words. Every word but the
empty one has an index, and the order of the indices is that of the words, shorter words first.
-/

namespace RowInference

/-- The number of a word, counted from 1; the empty word has number 0. -/
def wordNumber (word : List Char) : Nat := word.foldl (fun number char => 26 * number + (char.toNat - 96)) 0

theorem wordNumber_append_singleton (word : List Char) (char : Char) :
    wordNumber (word ++ [char]) = 26 * wordNumber word + (char.toNat - 96) := by
  rw [wordNumber, List.foldl_append, List.foldl_cons, List.foldl_nil, ← wordNumber]

/-- A word is not numbered before a word that it continues. -/
theorem wordNumber_le_append (word rest : List Char) : wordNumber word ≤ wordNumber (word ++ rest) := by
  induction rest using List.reverseRecOn with
  | nil => exact Nat.le_of_eq (by rw [List.append_nil])
  | append_singleton init last ih =>
    rw [← List.append_assoc, wordNumber_append_singleton]
    omega

theorem letter_toNat : ∀ index < 26, (letter index).toNat = 97 + index := by decide

theorem letter_isLower : ∀ index < 26, (letter index).isLower = true := by decide

/-- Reading a word of letters as a number gives its index, counted from 1. -/
theorem wordNumber_letters (index : Nat) : wordNumber (letters index) = index + 1 := by
  fun_induction letters index with
  | case1 index small =>
    rw [wordNumber, List.foldl_cons, List.foldl_nil, letter_toNat index small]
    omega
  | case2 index large ih =>
    rw [wordNumber_append_singleton, ih, letter_toNat _ (Nat.mod_lt index (by decide))]
    omega

/-- Different numbers have different words. -/
theorem letters_injective : Function.Injective letters := by
  intro left right same
  have numbers : left + 1 = right + 1 := by rw [← wordNumber_letters, same, wordNumber_letters]
  omega

theorem letterName_injective : Function.Injective letterName :=
  fun _ _ same => letters_injective (String.ofList_injective same)

theorem letters_ne_nil (index : Nat) : letters index ≠ [] := by
  intro none
  have number := wordNumber_letters index
  rw [none] at number
  cases number

/-- Words consist of lower-case letters. -/
theorem isLower_of_mem_letters {index : Nat} {char : Char} (member : char ∈ letters index) : char.isLower = true := by
  fun_induction letters index with
  | case1 index small =>
    rw [List.mem_singleton.mp member]
    exact letter_isLower index small
  | case2 index large ih =>
    rcases List.mem_append.mp member with earlier | last
    · exact ih earlier
    · rw [List.mem_singleton.mp last]
      exact letter_isLower _ (Nat.mod_lt index (by decide))

/-- A word that begins with another one comes at its place or later. -/
theorem wordNumber_le_of_prefix {word : List Char} {index : Nat} (begins : word <+: letters index) :
    wordNumber word ≤ index + 1 := by
  obtain ⟨rest, whole⟩ := begins
  rw [← wordNumber_letters, ← whole]
  exact wordNumber_le_append word rest

/-! ## Enumeration -/

/-- A word of lower-case letters that is not empty. -/
def IsLowerWord (word : String) : Prop := word ≠ "" ∧ ∀ char ∈ word.toList, char.isLower = true

theorem toNat_of_isLower {char : Char} (lower : char.isLower = true) : 97 ≤ char.toNat ∧ char.toNat ≤ 122 := by
  obtain ⟨low, high⟩ := Bool.and_eq_true_iff.mp lower
  exact ⟨of_decide_eq_true low, of_decide_eq_true high⟩

theorem letter_of_isLower {char : Char} (lower : char.isLower = true) : letter (char.toNat - 97) = char := by
  obtain ⟨low, high⟩ := toNat_of_isLower lower
  apply Char.toNat_inj.mp
  rw [letter_toNat _ (by omega)]
  omega

/-- Every word has a number, the one before that of its letters read as digits. -/
theorem letters_wordNumber {word : List Char} (some : word ≠ []) (lower : ∀ char ∈ word, char.isLower = true) :
    letters (wordNumber word - 1) = word := by
  induction word using List.reverseRecOn with
  | nil => exact absurd rfl some
  | append_singleton init last ih =>
    rw [List.forall_mem_append, List.forall_mem_singleton] at lower
    obtain ⟨low, high⟩ := toNat_of_isLower lower.2
    have lastLetter := letter_of_isLower lower.2
    rw [wordNumber_append_singleton, letters]
    by_cases alone : init = []
    · subst alone
      have index : 26 * wordNumber [] + (last.toNat - 96) - 1 = last.toNat - 97 := by
        rw [wordNumber, List.foldl_nil]
        omega
      rw [index, if_pos (by omega), lastLetter, List.nil_append]
    · have initial := ih alone lower.1
      have positive : 0 < wordNumber init := by
        have number := wordNumber_letters (wordNumber init - 1)
        rw [initial] at number
        omega
      have quotient : (26 * wordNumber init + (last.toNat - 96) - 1) / 26 = wordNumber init := by omega
      have remainder : (26 * wordNumber init + (last.toNat - 96) - 1) % 26 = last.toNat - 97 := by omega
      rw [if_neg (by omega), quotient, remainder, initial, lastLetter]

theorem length_letters_lt {index : Nat} (large : 26 ≤ index) : 1 < (letters index).length := by
  rw [letters, if_neg (by omega), List.length_append, List.length_singleton]
  have := List.length_pos_of_ne_nil (letters_ne_nil (index / 26 - 1))
  omega

/-- Letters come in the order of their indices. -/
theorem letter_lt {left right : Nat} (less : left < right) (small : right < 26) : letter left < letter right := by
  have numbers : (letter left).toNat < (letter right).toNat := by
    rw [letter_toNat left (by omega), letter_toNat right small]
    omega
  exact numbers

/-- Words of one length that differ keep their order when letters are added behind them. -/
theorem lex_append {left right : List Char} (less : List.Lex (· < ·) left right) (length : left.length = right.length)
    (leftRest rightRest : List Char) : List.Lex (· < ·) (left ++ leftRest) (right ++ rightRest) := by
  induction less with
  | nil => cases length
  | cons _ ih => exact .cons (ih (Nat.succ.inj length))
  | rel less => exact .rel less

/-- A letter more on both sides keeps the order of words. -/
theorem shortlex_append_singleton {left right : List Char} (less : List.Shortlex (· < ·) left right) (a b : Char) :
    List.Shortlex (· < ·) (left ++ [a]) (right ++ [b]) := by
  rcases List.shortlex_def.mp less with shorter | ⟨length, before⟩
  · exact .of_length_lt (by simpa using shorter)
  · exact .of_lex (by simpa using length) (lex_append before length [a] [b])

/-- Later words are longer, or of the same length and alphabetically later. The word before the last letter decides
unless it is the same. -/
theorem letters_shortlex {left right : Nat} (less : left < right) :
    List.Shortlex (· < ·) (letters left) (letters right) := by
  fun_induction letters left generalizing right with
  | case1 left small =>
    by_cases rightSmall : right < 26
    · rw [letters, if_pos rightSmall, List.shortlex_singleton_iff]
      exact letter_lt less rightSmall
    · exact .of_length_lt (length_letters_lt (by omega))
  | case2 left large ih =>
    rw [letters.eq_def right, if_neg (by omega)]
    rcases Nat.lt_or_ge (left / 26 - 1) (right / 26 - 1) with earlier | notEarlier
    · exact shortlex_append_singleton (ih earlier) _ _
    · have same : left / 26 - 1 = right / 26 - 1 := by omega
      rw [same]
      apply List.Shortlex.append_left
      rw [List.shortlex_singleton_iff]
      exact letter_lt (by omega) (by omega)

/-! ## Letters as bytes -/

/-- The letters of the word with a given number, counted from 1, as bytes and last letter first. -/
def lastBytesFirst : Nat → List UInt8
  | 0 => []
  | number + 1 => UInt8.ofNat (97 + number % 26) :: lastBytesFirst (number / 26)
termination_by number => number
decreasing_by omega

theorem utf8EncodeChar_letter {index : Nat} (small : index < 26) :
    String.utf8EncodeChar (letter index) = [UInt8.ofNat (97 + index)] := by
  have oneByte : (letter index).utf8Size = 1 := by
    rw [Char.utf8Size_eq_one_iff, UInt32.le_iff_toNat_le]
    change (letter index).toNat ≤ 127
    rw [letter_toNat index small]
    omega
  rw [String.utf8EncodeChar_eq_singleton oneByte, ← letter_toNat index small]
  rfl

/-- The bytes in order are the encoding of the word. -/
theorem lastBytesFirst_reverse (index : Nat) :
    (lastBytesFirst (index + 1)).reverse.toByteArray = (letters index).utf8Encode := by
  fun_induction letters index with
  | case1 index small =>
    rw [lastBytesFirst, Nat.div_eq_of_lt small, lastBytesFirst, List.reverse_singleton, List.utf8Encode_singleton,
      utf8EncodeChar_letter small, Nat.mod_eq_of_lt small]
  | case2 index large ih =>
    have quotient : index / 26 = index / 26 - 1 + 1 := by omega
    rw [← quotient] at ih
    rw [lastBytesFirst, List.reverse_cons, List.toByteArray_append, ih, List.utf8Encode_append,
      List.utf8Encode_singleton, utf8EncodeChar_letter (Nat.mod_lt index (by decide))]

/-- The bytes of the letters, last one first, make the word when they are turned round. -/
theorem fromUTF8?_lastBytesFirst (index : Nat) :
    String.fromUTF8? (lastBytesFirst (index + 1)).reverse.toByteArray = some (letterName index) := by
  have valid : (letters index).utf8Encode.IsValidUTF8 := (letterName index).isValidUTF8
  rw [lastBytesFirst_reverse, String.fromUTF8?, dif_pos valid]
  rfl

/-- The names are all words of lower-case letters, in order of length and then of the alphabet, each once. Reading the
letters off as bytes, last letter first, always gives a valid text. -/
theorem letterName_enumerates :
    Set.BijOn letterName Set.univ {word | IsLowerWord word} ∧
      (∀ left right, List.Shortlex (· < ·) (letterName left).toList (letterName right).toList ↔ left < right) ∧
      ∀ index, String.fromUTF8? (lastBytesFirst (index + 1)).reverse.toByteArray = some (letterName index) := by
  refine ⟨⟨?_, letterName_injective.injOn, ?_⟩, ?_, fromUTF8?_lastBytesFirst⟩
  · intro index _
    constructor
    · intro none
      exact letters_ne_nil index (String.ofList_eq_empty_iff.mp none)
    · intro char member
      rw [letterName, String.toList_ofList] at member
      exact isLower_of_mem_letters member
  · rintro word ⟨nonempty, lower⟩
    refine ⟨wordNumber word.toList - 1, trivial, ?_⟩
    rw [letterName, letters_wordNumber (by simpa using nonempty) lower, String.ofList_toList]
  · intro left right
    simp only [letterName, String.toList_ofList]
    refine ⟨fun before => ?_, letters_shortlex⟩
    by_contra notLess
    rcases Nat.eq_or_lt_of_not_lt notLess with same | less
    · rw [same] at before
      exact irrefl _ before
    · exact Std.Asymm.asymm _ _ before (letters_shortlex less)

end RowInference
