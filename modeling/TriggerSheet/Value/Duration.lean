import TriggerSheet.Numeral.Decimal
import TriggerSheet.Text.Blank
import TriggerSheet.Value.Error

/-!
# Durations

A duration is a whole number of nanoseconds. It is written as a plain numeral with an optional
unit, milliseconds when there is none; letter case does not matter in a unit, and the long s `ſ`
folds to an `s`. The numeral is read as a binary64 number and multiplied in that arithmetic, so
very long numerals are exact only as far as binary64 is.

## Main definitions

* `Duration` — a number of nanoseconds
* `Duration.Unit.ofText?` — the spellings of the units
* `Duration.parse` — the strict reader
* `Duration.parseOr` — the lenient reader, with a default
* `Duration.text` — the written form, in the largest unit that leaves a whole part
-/

namespace TriggerSheet

/-- A whole number of nanoseconds. -/
structure Duration where
  nanos : Nat
  deriving DecidableEq, Repr

namespace Duration

def ofMillis (n : Nat) : Duration := ⟨n * 1000000⟩

/-- The largest number of nanoseconds that a duration read from a text has. -/
def readLimit : Nat := Nat.pow 2 64 - 1

/-- The largest number of nanoseconds of any duration: `2⁶⁴ - 1` seconds, and all but one of the
nanoseconds of another. -/
def limit : Nat := readLimit * 1000000000 + 999999999

/-- The sum of two durations, or the largest duration when the sum is larger. -/
def add (a b : Duration) : Duration := ⟨min limit (a.nanos + b.nanos)⟩

/-- What one unit is worth. -/
inductive Unit where
  | milliseconds
  | seconds
  deriving DecidableEq, Repr

namespace Unit

/-- The letter `m` in either case. -/
def isM (c : Char) : Bool := c == 'm' || c == 'M'

/-- The letter `s` in either case. -/
def isS (c : Char) : Bool := c == 's' || c == 'S'

/-- The letters that fold to `s`. -/
def foldsToS (c : Char) : Bool := isS c || c == 'ſ'

/-- The unit that a text spells, milliseconds for the empty text. A long s is a spelling of a
unit, but only an `s` of the ASCII range selects seconds. -/
def ofText? : List Char → Option Unit
  | [] => some milliseconds
  | [s] => if isS s then some seconds else if foldsToS s then some milliseconds else none
  | [m, s] => if isM m && foldsToS s then some milliseconds else none
  | _ => none

/-- An amount of the unit in milliseconds, rounded. -/
def toMillis : Unit → Magnitude → Magnitude
  | milliseconds, amount => amount
  | seconds, amount => amount.mulNat 1000

end Unit

/-- The duration of a number of milliseconds: the product is rounded in binary64 arithmetic, then
to the nearest nanosecond. -/
def ofMagnitude (millis : Magnitude) : Duration :=
  ⟨(millis.mulNat 1000000).nearestNat readLimit⟩

/-- The numeral and the unit that a whole text writes. -/
def read? (s : List Char) : Option (Decimal × Unit) := do
  let (amount, rest) ← Decimal.read? (Text.trim s)
  let unit ← Unit.ofText? (Text.trimStart rest)
  return (amount, unit)

/-- The duration that a text writes. -/
def parse (text : String) : Except ValueError Duration :=
  match read? text.toList with
  | some (amount, unit) => .ok (ofMagnitude (unit.toMillis amount.magnitude))
  | none => .error (.invalidDuration text)

/-- The duration that a text writes, or `default` when it writes none. -/
def parseOr (text : Option String) (default : Duration) : Duration :=
  match text with
  | none => default
  | some t =>
    match parse t with
    | .ok d => d
    | .error _ => default

/-- The duration of an effect that is given none. -/
def standard : Duration := ofMillis 600

/-- A number of `places` decimal places without trailing zeros, as whole part and fraction. -/
def withPlaces (n places : Nat) : String :=
  let digits := Nat.toDigits 10 (n % Nat.pow 10 places)
  let fraction := List.replicate (places - digits.length) '0' ++ digits
  let shown := (fraction.reverse.dropWhile (· == '0')).reverse
  toString (n / Nat.pow 10 places) ++
    (if places = 0 ∨ shown.isEmpty then "" else "." ++ String.ofList shown)

/-- The written form, in the largest of seconds, milliseconds, microseconds and nanoseconds that
leaves a whole part. -/
def text (d : Duration) : String :=
  if 1000000000 ≤ d.nanos then withPlaces d.nanos 9 ++ "s"
  else if 1000000 ≤ d.nanos then withPlaces d.nanos 6 ++ "ms"
  else if 1000 ≤ d.nanos then withPlaces d.nanos 3 ++ "µs"
  else withPlaces d.nanos 0 ++ "ns"

end Duration

end TriggerSheet
