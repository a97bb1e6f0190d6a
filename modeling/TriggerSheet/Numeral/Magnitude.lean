/-!
# Magnitudes of binary64 numbers

The absolute value of a binary64 number is a whole number of units of `2⁻¹⁰⁷⁴`, or infinite.
Numbers are rounded on exact naturals: a quotient goes to the nearest value with 53 significant
bits, a tie to the even one, and what reaches `2¹⁰²⁴` is infinite.

## Main definitions

* `Magnitude` — a whole number of units, or infinity
* `Magnitude.ofUnits`, `Magnitude.ofRatio` — the nearest magnitude to a quotient
* `Magnitude.mulNat` — the rounded product with a natural number
* `Magnitude.nearestNat` — the nearest natural, a half going up, with an upper limit
* `Magnitude.floorNat` — the whole part, with an upper limit
* `Magnitude.bits` — the binary64 encoding
-/

namespace TriggerSheet

/-- The absolute value of a binary64 number, in units of `2⁻¹⁰⁷⁴`. -/
inductive Magnitude where
  | finite (units : Nat)
  | infinite
  deriving DecidableEq, Repr

/-- The whole number nearest to `num / den`; a tie goes to the even one. -/
def nearestEven (num den : Nat) : Nat :=
  let whole := num / den
  let rest := num % den
  if 2 * rest < den then whole
  else if den < 2 * rest then whole + 1
  else if whole % 2 = 0 then whole
  else whole + 1

namespace Magnitude

/-- The number of units in one. -/
def unitsPerOne : Nat := Nat.pow 2 1074

/-- The units at which magnitudes become infinite. -/
def unitsLimit : Nat := Nat.pow 2 2098

/-- The exponent of the last of 53 significant bits of `units`; small numbers have all of their
units as bits. -/
def lastPlace (units : Nat) : Nat := Nat.log2 units - 52

/-- The magnitude nearest to `num / den` units. -/
def ofUnits (num den : Nat) : Magnitude :=
  let step := Nat.pow 2 (lastPlace (num / den))
  let units := nearestEven num (den * step) * step
  if units < unitsLimit then finite units else infinite

/-- The magnitude nearest to `num / den`. -/
def ofRatio (num den : Nat) : Magnitude := ofUnits (num * unitsPerOne) den

/-- The magnitude nearest to the product with a positive natural number. -/
def mulNat (k : Nat) : Magnitude → Magnitude
  | finite units => ofUnits (units * k) 1
  | infinite => infinite

/-- The nearest natural number, a half going up, or `limit` when that is smaller. -/
def nearestNat (limit : Nat) : Magnitude → Nat
  | finite units => min limit ((2 * units + unitsPerOne) / (2 * unitsPerOne))
  | infinite => limit

/-- The whole part, or `limit` when that is smaller. -/
def floorNat (limit : Nat) : Magnitude → Nat
  | finite units => min limit (units / unitsPerOne)
  | infinite => limit

/-- The 63 bits below the sign: the significand with its leading bit adds one to the exponent
field. -/
def bits : Magnitude → Nat
  | finite units => lastPlace units * Nat.pow 2 52 + units / Nat.pow 2 (lastPlace units)
  | infinite => 0x7ff * Nat.pow 2 52

end Magnitude

/-- A binary64 number other than NaN. -/
structure Binary64 where
  negative : Bool
  magnitude : Magnitude
  deriving DecidableEq, Repr

namespace Binary64

/-- The 64 bits of the encoding. -/
def bits (x : Binary64) : Nat := (if x.negative then Nat.pow 2 63 else 0) + x.magnitude.bits

/-- Whether a number is finite and not a zero. -/
def isProper (x : Binary64) : Bool :=
  match x.magnitude with
  | .finite units => units != 0
  | .infinite => false

end Binary64

end TriggerSheet
