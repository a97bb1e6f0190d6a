import TriggerSheet.Text.Picture

/-!
# Quoted text

A text between double quotes, on one line: a quote and a backslash are escaped, the common control
characters have short names, and any other character without a picture is written by its number
in hexadecimal digits. A single quote stands for itself.

## Main definitions

* `Text.hexDigits` — a number in lower-case hexadecimal digits
* `Text.escape` — the written form of one character
* `Text.quoted` — the written form of a text
-/

namespace TriggerSheet.Text

/-- A number in lower-case hexadecimal digits, without leading zeros. -/
def hexDigits (n : Nat) : String := String.ofList (Nat.toDigits 16 n)

/-- The written form of one character between quotes. -/
def escape (c : Char) : String :=
  if c = '"' then "\\\""
  else if c = '\\' then "\\\\"
  else if c = '\n' then "\\n"
  else if c = '\r' then "\\r"
  else if c = '\t' then "\\t"
  else if c.toNat = 0 then "\\0"
  else if hasPicture c then String.singleton c
  else "\\u\x7b" ++ hexDigits c.toNat ++ "\x7d"

/-- A text between double quotes. -/
def quoted (s : String) : String := "\"" ++ String.join (s.toList.map escape) ++ "\""

end TriggerSheet.Text
