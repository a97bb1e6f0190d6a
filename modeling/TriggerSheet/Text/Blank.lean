/-!
# Blank characters and trimming

A character is blank when it has the Unicode property `White_Space`. Names, values and arguments
are trimmed of blank characters at both ends before anything else looks at them.

## Main definitions

* `Text.isBlank` — the 25 blank characters
* `Text.trim` — a text without the blank characters at its ends
* `Text.trimmed` — the same on strings

## Main results

* `Text.length_trim_le` — trimming never lengthens a text
-/

namespace TriggerSheet.Text

/-- The characters with the Unicode property `White_Space`. -/
def isBlank (c : Char) : Bool :=
  let n := c.toNat
  (0x9 ≤ n && n ≤ 0xD) || n == 0x20 || n == 0x85 || n == 0xA0 || n == 0x1680 ||
    (0x2000 ≤ n && n ≤ 0x200A) || n == 0x2028 || n == 0x2029 || n == 0x202F || n == 0x205F ||
    n == 0x3000

/-- A text without its leading blank characters. -/
def trimStart (s : List Char) : List Char := s.dropWhile isBlank

/-- A text without its trailing blank characters. -/
def trimEnd (s : List Char) : List Char := (s.reverse.dropWhile isBlank).reverse

/-- A text without the blank characters at its ends. -/
def trim (s : List Char) : List Char := trimEnd (trimStart s)

/-- A string without the blank characters at its ends. -/
def trimmed (s : String) : String := String.ofList (trim s.toList)

theorem length_trimStart_le (s : List Char) : (trimStart s).length ≤ s.length :=
  (List.dropWhile_sublist isBlank).length_le

theorem length_trimEnd_le (s : List Char) : (trimEnd s).length ≤ s.length := by
  have h := (List.dropWhile_sublist isBlank (l := s.reverse)).length_le
  simpa [trimEnd] using h

theorem length_trim_le (s : List Char) : (trim s).length ≤ s.length :=
  Nat.le_trans (length_trimEnd_le _) (length_trimStart_le s)

end TriggerSheet.Text
