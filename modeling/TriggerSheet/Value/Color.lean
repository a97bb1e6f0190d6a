import TriggerSheet.Numeral.Decimal
import TriggerSheet.Text.Ascii
import TriggerSheet.Text.Blank
import TriggerSheet.Text.DecimalDigit
import TriggerSheet.Value.Error

/-!
# Colors

A color is written as `#` with three or six hexadecimal digits, or as a function `rgb` or `rgba`
whose first three numbers are the channels. Letter case and outer blanks do not matter. The
functional form is read loosely: whatever stands between its numbers is skipped.

## Main definitions

* `Color` — a color with its three channels and its texts
* `Color.parse` — the reader
* `Color.packed` — the channels in one number
-/

namespace TriggerSheet

/-- How a color was written. -/
inductive ColorFormat where
  | hex
  | rgb
  | rgba
  deriving DecidableEq, Repr

/-- The three channels of a color, each at most 255. -/
structure Channels where
  red : Nat
  green : Nat
  blue : Nat
  deriving DecidableEq, Repr

/-- A color that was read from a text. -/
structure Color where
  format : ColorFormat
  written : String
  channels : Channels
  deriving DecidableEq, Repr

/-- The channels in one number, eight bits each, red first. -/
def Channels.packed (c : Channels) : Nat := c.red * 65536 + c.green * 256 + c.blue

namespace Color

/-- The value of a hexadecimal digit. -/
def hexDigit? (c : Char) : Option Nat :=
  if '0' ≤ c && c ≤ '9' then some (c.toNat - '0'.toNat)
  else if 'a' ≤ c && c ≤ 'f' then some (c.toNat - 'a'.toNat + 10)
  else if 'A' ≤ c && c ≤ 'F' then some (c.toNat - 'A'.toNat + 10)
  else none

/-- The channels written by three or six hexadecimal digits; each of three stands for two. -/
def hexChannels? (digits : List Char) : Option Channels := do
  match ← digits.mapM hexDigit? with
  | [r, g, b] => some ⟨17 * r, 17 * g, 17 * b⟩
  | [r, r', g, g', b, b'] => some ⟨16 * r + r', 16 * g + g', 16 * b + b'⟩
  | _ => none

/-- A number at the start of a text, which has to start with a decimal digit of any script: a run
of such digits and, if there is a point with another run behind it, those too. Its length is
given. -/
def numberLength (s : List Char) : Nat :=
  let whole := (s.takeWhile Text.isDecimalDigit).length
  match s.drop whole with
  | '.' :: rest =>
    let fraction := (rest.takeWhile Text.isDecimalDigit).length
    if fraction = 0 then whole else whole + 1 + fraction
  | _ => whole

/-- The numbers of a text, from left to right, whatever stands between them; `skip` characters of
the number that was read last are still ahead. -/
def numbersFrom (skip : Nat) : List Char → List (List Char)
  | [] => []
  | c :: rest =>
    if skip ≠ 0 then numbersFrom (skip - 1) rest
    else if Text.isDecimalDigit c then
      let length := numberLength (c :: rest)
      (c :: rest).take length :: numbersFrom (length - 1) rest
    else numbersFrom 0 rest

/-- The channel that a number writes: its whole part, at most 255. Only digits of the ASCII range
write a channel. -/
def channel? (number : List Char) : Option Nat :=
  match Decimal.read? number with
  | some (d, []) => some (d.magnitude.floorNat 255)
  | _ => none

/-- The channels written by the first three numbers of a text. -/
def numberChannels? (s : List Char) : Option Channels :=
  match ((numbersFrom 0 s).take 3).filterMap channel? with
  | [r, g, b] => some ⟨r, g, b⟩
  | _ => none

/-- The format and the channels of a trimmed text in lower case. -/
def read? (s : List Char) : Option (ColorFormat × Channels) :=
  match s with
  | '#' :: digits => (hexChannels? digits).map (.hex, ·)
  | _ =>
    if Text.startsWith ['r', 'g', 'b', 'a'] s then (numberChannels? s).map (.rgba, ·)
    else if Text.startsWith ['r', 'g', 'b'] s then (numberChannels? s).map (.rgb, ·)
    else none

/-- The color that a text writes. -/
def parse (text : String) : Except ValueError Color :=
  match read? (Text.lower (Text.trim text.toList)) with
  | some (format, channels) => .ok ⟨format, text, channels⟩
  | none => .error (.invalidColor text)

/-- The channels in one number. -/
def packed (c : Color) : Nat := c.channels.packed

/-- A number below 256 in two upper-case hexadecimal digits. -/
def hexByte (n : Nat) : List Char :=
  [Nat.digitChar (n / 16), Nat.digitChar (n % 16)].map Char.toUpper

/-- The one written form of a color in its format: six hexadecimal digits in upper case, or a
function of three channels. -/
def canonical (c : Color) : String :=
  let ⟨r, g, b⟩ := c.channels
  match c.format with
  | .hex => String.ofList ('#' :: hexByte r ++ hexByte g ++ hexByte b)
  | _ => "rgb(" ++ toString r ++ ", " ++ toString g ++ ", " ++ toString b ++ ")"

end Color

end TriggerSheet
