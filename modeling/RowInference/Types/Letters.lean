/-! # Letter names

The names `a`, `b`, …, `z`, `aa`, `ab`, … number the words over the lower-case letters, shorter words
first and words of one length alphabetically.
-/

namespace RowInference

/-- The lower-case letter with a given index below 26. -/
def letter (index : Nat) : Char := Char.ofNat ('a'.toNat + index)

/-- The letters of the word with a given number. -/
def letters (index : Nat) : List Char :=
  if index < 26 then [letter index] else letters (index / 26 - 1) ++ [letter (index % 26)]
termination_by index
decreasing_by omega

def letterName (index : Nat) : String := String.ofList (letters index)

end RowInference
