import TriggerSheet.Numeral.Decimal

/-!
# The shortest decimal text of a binary64 number

A number is written with the fewest significant digits that read back as the same number, and of
those with the nearest ones. It is written in positional notation when its first digit stands
between the fourth place after the point and the sixteenth before it, and with a power of ten
otherwise.

## Main definitions

* `Magnitude.leadingPower` — the power of ten of the first significant digit
* `Magnitude.shortest` — the fewest digits that read back, as a coefficient and a power of ten
* `Binary64.text` — the written form
-/

namespace TriggerSheet

namespace Magnitude

/-- The power of ten of the first significant digit of a positive number of units. -/
def leadingPower (units : Nat) : Int :=
  ((Nat.toDigits 10 (units * Nat.pow 10 400 / unitsPerOne)).length : Int) - 401

/-- The whole part of `units` divided by `10 ^ power`. -/
def gridFloor (units : Nat) (power : Int) : Nat :=
  if 0 ≤ power then units / (unitsPerOne * Nat.pow 10 power.toNat)
  else units * Nat.pow 10 (-power).toNat / unitsPerOne

/-- Whether `n · 10 ^ power` reads back as `units`. -/
def readsBack (units n : Nat) (power : Int) : Bool :=
  (Scientific.mk false ⟨n, 0⟩ power).magnitude = finite units

/-- Whether `units` is nearer to `n · 10 ^ power` than to `(n + 1) · 10 ^ power`. -/
def nearerBelow (units n : Nat) (power : Int) : Bool :=
  gridFloor (2 * units) power < 2 * n + 1

/-- The coefficient with `count` significant digits that reads back as `units`, if there is one:
of two, the nearer. -/
def withDigits? (units count : Nat) : Option (Nat × Int) :=
  let power := leadingPower units - (count - 1 : Nat)
  let below := gridFloor units power
  match readsBack units below power, readsBack units (below + 1) power with
  | true, true => some (if nearerBelow units below power then below else below + 1, power)
  | true, false => some (below, power)
  | false, true => some (below + 1, power)
  | false, false => none

/-- The fewest significant digits that read back as a positive number of units: seventeen always
suffice. -/
def shortest (units : Nat) : Nat × Int :=
  ((List.range 17).findSome? fun i => withDigits? units (i + 1)).getD (0, 0)

end Magnitude

/-- `count` zeros. -/
def zeros (count : Nat) : List Char := List.replicate count '0'

/-- Significant digits, the first of which stands at `10 ^ power`, as a text. -/
def placeDigits (digits : List Char) (power : Int) : List Char :=
  if -5 < power ∧ power < 0 then '0' :: '.' :: zeros (-power - 1).toNat ++ digits
  else if 0 ≤ power ∧ power < 16 then
    let whole := power.toNat + 1
    let fraction := digits.drop whole
    digits.take whole ++ zeros (whole - digits.length) ++ '.' ::
      (if fraction.isEmpty then ['0'] else fraction)
  else
    let fraction := digits.drop 1
    digits.take 1 ++ (if fraction.isEmpty then [] else '.' :: fraction) ++ 'e' ::
      (toString power).toList

/-- The written form of a magnitude. -/
def Magnitude.text : Magnitude → List Char
  | .infinite => ['i', 'n', 'f']
  | .finite 0 => ['0', '.', '0']
  | .finite units =>
    let (n, power) := shortest units
    let written := Nat.toDigits 10 n
    let digits := (written.reverse.dropWhile (· == '0')).reverse
    placeDigits digits (power + (written.length - 1 : Nat))

/-- The written form of a number. -/
def Binary64.text (x : Binary64) : String :=
  String.ofList ((if x.negative then ['-'] else []) ++ x.magnitude.text)

end TriggerSheet
