import TriggerSheet.Numeral.Magnitude

/-!
# Decimal numerals

A plain numeral is a run of ASCII digits with an optional point, at least one digit standing
somewhere, and none being required after a point that follows a digit. A scientific numeral adds
a sign in front and a power of ten behind.

## Main definitions

* `Decimal` — a natural coefficient and a number of decimal places
* `Decimal.read?` — a plain numeral at the start of a text, and what follows it
* `Scientific` — a signed decimal and a power of ten
* `Scientific.ofText?` — a text that is a scientific numeral as a whole
* `Decimal.magnitude`, `Scientific.value` — correctly rounded values
-/

namespace TriggerSheet

/-- A digit of the ASCII range. -/
def isDigit (c : Char) : Bool := '0' ≤ c && c ≤ '9'

/-- The number written by a run of ASCII digits; the empty run is zero. -/
def digitsValue (digits : List Char) : Nat :=
  digits.foldl (fun n d => 10 * n + (d.toNat - '0'.toNat)) 0

/-- The number `coefficient / 10 ^ places`. -/
structure Decimal where
  coefficient : Nat
  places : Nat
  deriving DecidableEq, Repr

namespace Decimal

/-- The decimal written by `whole`, a point, and `fraction`. -/
def ofDigits (whole fraction : List Char) : Decimal :=
  ⟨digitsValue (whole ++ fraction), fraction.length⟩

/-- A plain numeral at the start of a text, as long as possible, and the text behind it. -/
def read? (s : List Char) : Option (Decimal × List Char) :=
  let whole := s.takeWhile isDigit
  match s.dropWhile isDigit with
  | '.' :: rest =>
    let fraction := rest.takeWhile isDigit
    if whole.isEmpty && fraction.isEmpty then none
    else some (ofDigits whole fraction, rest.dropWhile isDigit)
  | rest => if whole.isEmpty then none else some (ofDigits whole [], rest)

/-- The magnitude nearest to a decimal. -/
def magnitude (d : Decimal) : Magnitude := Magnitude.ofRatio d.coefficient (Nat.pow 10 d.places)

end Decimal

/-- The number `decimal · 10 ^ exponent`, with a sign. -/
structure Scientific where
  negative : Bool
  decimal : Decimal
  exponent : Int
  deriving DecidableEq, Repr

namespace Scientific

/-- A sign at the start of a text, as whether it is a minus, and the text behind it. -/
def readSign : List Char → Bool × List Char
  | '-' :: rest => (true, rest)
  | '+' :: rest => (false, rest)
  | rest => (false, rest)

/-- The power of ten that a whole text writes: nothing, or `e` with a signed run of digits. -/
def readExponent? : List Char → Option Int
  | [] => some 0
  | e :: rest =>
    let (negative, digits) := readSign rest
    if (e == 'e' || e == 'E') && !digits.isEmpty && digits.all isDigit then
      some (if negative then -(digitsValue digits : Int) else digitsValue digits)
    else none

/-- The scientific numeral that a whole text writes. -/
def ofText? (s : List Char) : Option Scientific :=
  let (negative, unsigned) := readSign s
  match Decimal.read? unsigned with
  | none => none
  | some (decimal, rest) => (readExponent? rest).map (⟨negative, decimal, ·⟩)

/-- The magnitude nearest to a scientific numeral without its sign. Beyond `10⁴⁰⁰`, and below
`10⁻⁴⁰⁰`, the power of ten is not computed: there the nearest magnitude is infinite, or zero. -/
def magnitude (s : Scientific) : Magnitude :=
  let n := s.decimal.coefficient
  let power := s.exponent - s.decimal.places
  if n = 0 then .finite 0
  else if 400 < power then .infinite
  else if power + (n.log2 / 3 + 1 : Nat) < -400 then .finite 0
  else if 0 ≤ power then .ofRatio (n * Nat.pow 10 power.toNat) 1
  else .ofRatio n (Nat.pow 10 (-power).toNat)

/-- The binary64 number nearest to a scientific numeral. -/
def value (s : Scientific) : Binary64 := ⟨s.negative, s.magnitude⟩

end Scientific

end TriggerSheet
