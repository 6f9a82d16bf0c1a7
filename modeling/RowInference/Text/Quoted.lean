import RowInference.Text.Shown

/-! # Quoted text

A quotation stands between double quotes. The quote, the backslash and characters without a shape of their
own are written as escapes, so that every quotation fits on one line and reads back unambiguously.
-/

namespace RowInference.Text

/-- A number in hexadecimal, with lower-case digits. -/
def hex (n : Nat) : String := String.ofList (Nat.toDigits 16 n)

def quoteChar (c : Char) : String :=
  if c = '"' then "\\\""
  else if c = '\\' then "\\\\"
  else if c = '\n' then "\\n"
  else if c = '\r' then "\\r"
  else if c = '\t' then "\\t"
  else if c.toNat = 0 then "\\0"
  else if isShown c then c.toString
  else "\\u\x7b" ++ hex c.toNat ++ "\x7d"

def quote (text : String) : String := "\"" ++ String.join (text.toList.map quoteChar) ++ "\""

end RowInference.Text
