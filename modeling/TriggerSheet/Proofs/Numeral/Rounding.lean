import Mathlib.Data.Nat.Dist
import Mathlib.Data.Nat.Log
import Mathlib.Order.Monotone.Defs
import Mathlib.Tactic.Linarith
import Mathlib.Tactic.Ring
import TriggerSheet.Numeral.Magnitude

/-!
# Rounding

A quotient of units is rounded on the grid of its last place, of which 53 bits remain. Every
representable number is on that grid, or lies below the leading bit of the quotient. So the rounded
number is a nearest one of the representable numbers, rounding keeps the order, and it takes nothing
from a number that is representable, like the whole numbers up to `2⁵³`.

## Main definitions

* `IsNearestEven` — a whole number is nearest to a quotient, and even if another is as near
* `Magnitude.Representable` — a number of units has 53 significant bits at most
* `Magnitude.rounded` — the units that a quotient is rounded to
* `Magnitude.whole` — the magnitude of a whole number

## Main results

* `Magnitude.rounded_nearest` — no representable number is nearer than the rounded one
* `Magnitude.ofUnits_le_ofUnits`, `Magnitude.mulNat_mono`, `Magnitude.nearestNat_mono` — rounding
  keeps the order
* `Magnitude.ofRatio_one`, `Magnitude.mulNat_whole` — whole numbers up to `2⁵³` are exact
-/

namespace TriggerSheet

variable {num num' den den' n r r' : Nat}

/-! ### Nearest whole numbers -/

/-- The number `r` is nearest to `num / den`, and it is even if another is as near. -/
structure IsNearestEven (num den r : Nat) : Prop where
  not_above : 2 * (r * den) ≤ 2 * num + den
  not_below : 2 * num ≤ 2 * (r * den) + den
  even : 2 * (r * den) = 2 * num + den ∨ 2 * num = 2 * (r * den) + den → r % 2 = 0

theorem isNearestEven_nearestEven (pos : 0 < den) (num : Nat) :
    IsNearestEven num den (nearestEven num den) := by
  have parts := Nat.div_add_mod num den
  have small := Nat.mod_lt num pos
  have above : (num / den + 1) * den = den * (num / den) + den := by ring
  have below : num / den * den = den * (num / den) := Nat.mul_comm _ _
  simp only [nearestEven]
  split_ifs with low high tie
  · exact ⟨by omega, by omega, by omega⟩
  · exact ⟨by omega, by omega, by omega⟩
  · exact ⟨by omega, by omega, fun _ => tie⟩
  · exact ⟨by omega, by omega, fun _ => by omega⟩

/-- A larger quotient is nearest to no smaller number. -/
theorem IsNearestEven.le (near : IsNearestEven num den r) (near' : IsNearestEven num' den' r')
    (pos : 0 < den) (pos' : 0 < den') (le : num * den' ≤ num' * den) : r ≤ r' := by
  by_contra lt
  have both : 0 < den * den' := Nat.mul_pos pos pos'
  have above := Nat.mul_le_mul_right den' near.not_above
  have below := Nat.mul_le_mul_right den near'.not_below
  have next : r = r' + 1 := by
    by_contra other
    have far : (r' + 2) * (den * den') ≤ r * (den * den') :=
      Nat.mul_le_mul_right _ (by omega)
    nlinarith
  -- Both quotients are the one in the middle, which is nearest to the even number alone.
  subst next
  have tie : 2 * ((r' + 1) * den) = 2 * num + den := by
    refine le_antisymm near.not_above (Nat.le_of_mul_le_mul_right ?_ pos')
    nlinarith
  have tie' : 2 * num' = 2 * (r' * den') + den' := by
    refine le_antisymm near'.not_below (Nat.le_of_mul_le_mul_right ?_ pos)
    nlinarith
  have even := near.even (.inl tie)
  have even' := near'.even (.inr tie')
  omega

theorem div_le_nearestEven (num den : Nat) : num / den ≤ nearestEven num den := by
  simp only [nearestEven]
  split_ifs <;> omega

theorem nearestEven_le_div_add_one (num den : Nat) : nearestEven num den ≤ num / den + 1 := by
  simp only [nearestEven]
  split_ifs <;> omega

theorem le_nearestEven (pos : 0 < den) (le : n * den ≤ num) : n ≤ nearestEven num den :=
  ((Nat.le_div_iff_mul_le pos).mpr le).trans (div_le_nearestEven num den)

theorem nearestEven_mul (pos : 0 < den) (n : Nat) : nearestEven (n * den) den = n := by
  simp [nearestEven, Nat.mul_div_cancel n pos, pos]

theorem nearestEven_le (pos : 0 < den) (le : num ≤ n * den) : nearestEven num den ≤ n := by
  rcases le.lt_or_eq with lt | rfl
  · have below : num / den < n := (Nat.div_lt_iff_lt_mul pos).mpr lt
    exact (nearestEven_le_div_add_one num den).trans below
  · exact (nearestEven_mul pos n).le

namespace Magnitude

/-! ### Representable numbers -/

/-- A number of units has 53 significant bits at most. -/
def Representable (units : Nat) : Prop := ∃ bits place, bits < 2 ^ 53 ∧ units = bits * 2 ^ place

variable {units v w k limit : Nat} {m m' : Magnitude}

theorem representable_two_pow (place : Nat) : Representable (2 ^ place) :=
  ⟨1, place, by norm_num, (Nat.one_mul _).symm⟩

theorem Representable.mul_two_pow (rep : Representable units) (place : Nat) :
    Representable (units * 2 ^ place) := by
  obtain ⟨bits, last, lt, rfl⟩ := rep
  exact ⟨bits, last + place, lt, by rw [Nat.pow_add, Nat.mul_assoc]⟩

theorem representable_of_le (le : n ≤ 2 ^ 53) : Representable n := by
  rcases le.lt_or_eq with lt | rfl
  · exact ⟨n, 0, lt, (Nat.mul_one n).symm⟩
  · exact representable_two_pow 53

theorem unitsPerOne_eq : unitsPerOne = 2 ^ 1074 := by
  unfold unitsPerOne
  generalize 1074 = place
  exact Nat.pow_eq

theorem unitsLimit_eq : unitsLimit = 2 ^ 1024 * unitsPerOne := by
  have sum : 2098 = 1024 + 1074 := rfl
  unfold unitsLimit unitsPerOne
  rewrite [sum]
  generalize 1024 = a, 1074 = b
  exact Nat.pow_add 2 a b

-- From here on, these numbers are never computed.
attribute [local irreducible] unitsPerOne unitsLimit

theorem unitsPerOne_pos : 0 < unitsPerOne := by
  rw [unitsPerOne_eq]
  generalize 1074 = place
  exact Nat.two_pow_pos place

theorem Representable.mul_unitsPerOne (rep : Representable n) :
    Representable (n * unitsPerOne) := by
  rw [unitsPerOne_eq]
  generalize 1074 = place
  exact rep.mul_two_pow place

theorem mul_unitsPerOne_lt (le : n ≤ 2 ^ 53) : n * unitsPerOne < unitsLimit := by
  have larger (place : Nat) (lt : 53 < place) : n < 2 ^ place :=
    le.trans_lt (Nat.pow_lt_pow_right (by norm_num) lt)
  rw [unitsLimit_eq]
  exact Nat.mul_lt_mul_of_pos_right (larger 1024 (by norm_num)) unitsPerOne_pos

theorem unitsLimit_pos : 0 < unitsLimit :=
  (Nat.zero_mul _).symm.trans_lt (mul_unitsPerOne_lt (Nat.zero_le _))

theorem lt_two_pow_lastPlace (units : Nat) : units < 2 ^ (lastPlace units + 53) := by
  refine Nat.lt_log2_self.trans_le (Nat.pow_le_pow_right Nat.two_pos ?_)
  unfold lastPlace
  omega

theorem two_pow_lastPlace_le (pos : 0 < lastPlace units) : 2 ^ (lastPlace units + 52) ≤ units := by
  unfold lastPlace at *
  rw [Nat.sub_add_cancel (by omega)]
  refine Nat.log2_self_le ?_
  rintro rfl
  simp at pos

/-- A representable number is on the grid of a last place, or below the leading bit that this place
belongs to. -/
theorem Representable.on_grid_or_below (rep : Representable v) (units : Nat) :
    (∃ bits, v = bits * 2 ^ lastPlace units) ∨
      v < 2 ^ (lastPlace units + 52) ∧ 2 ^ (lastPlace units + 52) ≤ units := by
  obtain ⟨bits, place, lt, rfl⟩ := rep
  rcases le_or_gt (lastPlace units) place with le | finer
  · refine .inl ⟨bits * 2 ^ (place - lastPlace units), ?_⟩
    rw [Nat.mul_assoc, ← Nat.pow_add, Nat.sub_add_cancel le]
  · refine .inr ⟨?_, two_pow_lastPlace_le (by omega)⟩
    calc bits * 2 ^ place < 2 ^ 53 * 2 ^ place :=
          Nat.mul_lt_mul_of_pos_right lt (Nat.two_pow_pos place)
      _ = 2 ^ (53 + place) := (Nat.pow_add ..).symm
      _ ≤ 2 ^ (lastPlace units + 52) := Nat.pow_le_pow_right Nat.two_pos (by omega)

/-! ### Rounded units -/

/-- The units that a quotient is rounded to, however large they are. -/
def rounded (num den : Nat) : Nat :=
  nearestEven num (den * 2 ^ lastPlace (num / den)) * 2 ^ lastPlace (num / den)

theorem ofUnits_eq (num den : Nat) :
    ofUnits num den =
      if rounded num den < unitsLimit then finite (rounded num den) else infinite := rfl

theorem rounded_of_ofUnits (is : ofUnits num den = finite v) : rounded num den = v := by
  rw [ofUnits_eq] at is
  split_ifs at is
  exact finite.inj is

theorem step_pos (pos : 0 < den) (place : Nat) : 0 < den * 2 ^ place :=
  Nat.mul_pos pos (Nat.two_pow_pos place)

/-- A representable number that is not above the quotient is not above the rounded one. -/
theorem le_rounded (rep : Representable v) (pos : 0 < den) (le : v * den ≤ num) :
    v ≤ rounded num den := by
  rcases rep.on_grid_or_below (num / den) with ⟨bits, rfl⟩ | ⟨below, leading⟩
  · refine Nat.mul_le_mul_right _ (le_nearestEven (step_pos pos _) ?_)
    rwa [Nat.mul_comm den, ← Nat.mul_assoc]
  · have leads : 2 ^ 52 ≤ nearestEven num (den * 2 ^ lastPlace (num / den)) := by
      refine le_nearestEven (step_pos pos _) ?_
      rw [Nat.mul_comm den, ← Nat.mul_assoc, ← Nat.pow_add, Nat.add_comm 52]
      exact (Nat.le_div_iff_mul_le pos).mp leading
    calc v ≤ 2 ^ (lastPlace (num / den) + 52) := below.le
      _ = 2 ^ 52 * 2 ^ lastPlace (num / den) := by rw [Nat.add_comm, Nat.pow_add]
      _ ≤ rounded num den := Nat.mul_le_mul_right _ leads

/-- A representable number that is not below the quotient is not below the rounded one. -/
theorem rounded_le (rep : Representable v) (pos : 0 < den) (le : num ≤ v * den) :
    rounded num den ≤ v := by
  rcases rep.on_grid_or_below (num / den) with ⟨bits, rfl⟩ | ⟨below, leading⟩
  · refine Nat.mul_le_mul_right _ (nearestEven_le (step_pos pos _) ?_)
    rwa [Nat.mul_comm den, ← Nat.mul_assoc]
  · have reaches : num / den ≤ v := Nat.div_le_of_le_mul (le.trans_eq (Nat.mul_comm v den))
    omega

theorem rounded_mul (rep : Representable v) (pos : 0 < den) : rounded (v * den) den = v :=
  le_antisymm (rounded_le rep pos le_rfl) (le_rounded rep pos le_rfl)

theorem lt_mul_two_pow (pos : 0 < den) (num : Nat) :
    num < 2 ^ (lastPlace (num / den) + 53) * den :=
  (Nat.div_lt_iff_lt_mul pos).mp (lt_two_pow_lastPlace _)

theorem representable_rounded (pos : 0 < den) (num : Nat) : Representable (rounded num den) := by
  have le : nearestEven num (den * 2 ^ lastPlace (num / den)) ≤ 2 ^ 53 := by
    refine nearestEven_le (step_pos pos _) ?_
    rw [Nat.mul_comm den, ← Nat.mul_assoc, ← Nat.pow_add, Nat.add_comm 53]
    exact (lt_mul_two_pow pos num).le
  exact (representable_of_le le).mul_two_pow _

/-- Rounding keeps the order of quotients. -/
theorem rounded_le_rounded (pos : 0 < den) (pos' : 0 < den') (le : num * den' ≤ num' * den) :
    rounded num den ≤ rounded num' den' := by
  have quotients : num / den ≤ num' / den' := by
    rw [Nat.le_div_iff_mul_le pos']
    refine Nat.le_of_mul_le_mul_right ?_ pos
    calc num / den * den' * den = num / den * den * den' := Nat.mul_right_comm ..
      _ ≤ num * den' := Nat.mul_le_mul_right _ (Nat.div_mul_le_self num den)
      _ ≤ num' * den := le
  have places : lastPlace (num / den) ≤ lastPlace (num' / den') := by
    have logs : (num / den).log2 ≤ (num' / den').log2 := by
      rw [Nat.log2_eq_log_two, Nat.log2_eq_log_two]
      exact Nat.log_mono_right quotients
    unfold lastPlace
    omega
  rcases places.lt_or_eq with lt | same
  · -- The leading bit of the larger quotient is between the two.
    have leads := two_pow_lastPlace_le (Nat.zero_lt_of_lt lt)
    calc rounded num den ≤ 2 ^ (lastPlace (num / den) + 53) :=
          rounded_le (representable_two_pow _) pos (lt_mul_two_pow pos num).le
      _ ≤ 2 ^ (lastPlace (num' / den') + 52) := Nat.pow_le_pow_right Nat.two_pos (by omega)
      _ ≤ rounded num' den' :=
          le_rounded (representable_two_pow _) pos' ((Nat.le_div_iff_mul_le pos').mp leads)
  · unfold rounded
    rw [same]
    refine Nat.mul_le_mul_right _ ?_
    refine (isNearestEven_nearestEven (step_pos pos _) num).le
      (isNearestEven_nearestEven (step_pos pos' _) num') (step_pos pos _) (step_pos pos' _) ?_
    calc num * (den' * 2 ^ lastPlace (num' / den'))
        = num * den' * 2 ^ lastPlace (num' / den') := (Nat.mul_assoc ..).symm
      _ ≤ num' * den * 2 ^ lastPlace (num' / den') := Nat.mul_le_mul_right _ le
      _ = num' * (den * 2 ^ lastPlace (num' / den')) := Nat.mul_assoc ..

/-- No representable number is nearer to a quotient than the rounded one. -/
theorem rounded_nearest (rep : Representable v) (pos : 0 < den) (num : Nat) :
    (rounded num den * den).dist num ≤ (v * den).dist num := by
  have grid (bits : Nat) : bits * 2 ^ lastPlace (num / den) * den =
      bits * (den * 2 ^ lastPlace (num / den)) := by rw [Nat.mul_comm den, ← Nat.mul_assoc]
  have near := isNearestEven_nearestEven (step_pos pos (lastPlace (num / den))) num
  obtain ⟨above, below, -⟩ := near
  have on_grid (bits : Nat) : (rounded num den * den).dist num ≤
      (bits * 2 ^ lastPlace (num / den) * den).dist num := by
    rw [rounded, grid, grid]
    generalize nearestEven num (den * 2 ^ lastPlace (num / den)) = nearest at above below ⊢
    generalize den * 2 ^ lastPlace (num / den) = step at above below ⊢
    rcases lt_trichotomy bits nearest with lt | rfl | lt
    · have apart := Nat.mul_le_mul_right step (Nat.succ_le_of_lt lt)
      rw [Nat.succ_mul] at apart
      simp only [Nat.dist]
      omega
    · rfl
    · have apart := Nat.mul_le_mul_right step (Nat.succ_le_of_lt lt)
      rw [Nat.succ_mul] at apart
      simp only [Nat.dist]
      omega
  rcases rep.on_grid_or_below (num / den) with ⟨bits, rfl⟩ | ⟨lower, leading⟩
  · exact on_grid bits
  · -- The leading bit is on the grid, and not farther from the quotient.
    have between := (Nat.le_div_iff_mul_le pos).mp leading
    have lower := Nat.mul_le_mul_right den lower.le
    have leads := on_grid (2 ^ 52)
    rw [← Nat.pow_add, Nat.add_comm 52] at leads
    refine leads.trans ?_
    simp only [Nat.dist]
    omega

/-! ### The order of magnitudes -/

/-- Units are compared as numbers, and nothing is above infinity. -/
def Le : Magnitude → Magnitude → Prop
  | _, infinite => True
  | infinite, finite _ => False
  | finite v, finite w => v ≤ w

instance : Preorder Magnitude where
  le := Le
  le_refl m := by cases m <;> simp [Le]
  le_trans a b c := by cases a <;> cases b <;> cases c <;> simp [Le]; exact Nat.le_trans

theorem finite_le_finite : finite v ≤ finite w ↔ v ≤ w := Iff.rfl

theorem le_infinite (m : Magnitude) : m ≤ infinite := by cases m <;> exact trivial

theorem not_infinite_le : ¬infinite ≤ finite v := id

/-- Rounding keeps the order of quotients. -/
theorem ofUnits_le_ofUnits (pos : 0 < den) (pos' : 0 < den') (le : num * den' ≤ num' * den) :
    ofUnits num den ≤ ofUnits num' den' := by
  have units := rounded_le_rounded pos pos' le
  rw [ofUnits_eq, ofUnits_eq]
  split_ifs with small small'
  · exact units
  · exact le_infinite _
  · omega
  · exact le_infinite _

theorem ofRatio_one_mono : Monotone (ofRatio · 1) := fun _ _ le =>
  ofUnits_le_ofUnits Nat.one_pos Nat.one_pos (Nat.mul_le_mul_right 1 (Nat.mul_le_mul_right _ le))

theorem representable_of_ofUnits (pos : 0 < den) (is : ofUnits num den = finite v) :
    Representable v :=
  rounded_of_ofUnits is ▸ representable_rounded pos num

theorem le_ofUnits (rep : Representable v) (pos : 0 < den) (le : v * den ≤ num) :
    finite v ≤ ofUnits num den := by
  have units := le_rounded rep pos le
  rw [ofUnits_eq]
  split_ifs
  · exact units
  · exact le_infinite _

theorem ofUnits_mul (rep : Representable v) (small : v < unitsLimit) (pos : 0 < den) :
    ofUnits (v * den) den = finite v := by
  rw [ofUnits_eq, rounded_mul rep pos, if_pos small]

theorem ofRatio_zero (pos : 0 < den) : ofRatio 0 den = finite 0 := by
  have exact := ofUnits_mul (representable_of_le (Nat.zero_le _)) unitsLimit_pos pos
  rw [Nat.zero_mul] at exact
  rw [ofRatio, Nat.zero_mul, exact]

/-- Less than half a unit is nothing. -/
theorem ofRatio_of_lt (lt : 2 * (num * unitsPerOne) < den) : ofRatio num den = finite 0 := by
  have none : num * unitsPerOne / den = 0 := Nat.div_eq_of_lt (by omega)
  have small : num * unitsPerOne % den = num * unitsPerOne := Nat.mod_eq_of_lt (by omega)
  have units : rounded (num * unitsPerOne) den = 0 := by
    simp [rounded, none, lastPlace, nearestEven, small, lt]
  rw [ofRatio, ofUnits_eq, units, if_pos unitsLimit_pos]

theorem mulNat_mono (k : Nat) : Monotone (mulNat k) := by
  intro m m' le
  cases m with
  | infinite =>
    cases m' with
    | infinite => exact le
    | finite w => exact (not_infinite_le le).elim
  | finite v =>
    cases m' with
    | infinite => exact le_infinite _
    | finite w =>
      exact ofUnits_le_ofUnits Nat.one_pos Nat.one_pos
        (Nat.mul_le_mul_right 1 (Nat.mul_le_mul_right k (finite_le_finite.mp le)))

theorem nearestNat_le (limit : Nat) (m : Magnitude) : nearestNat limit m ≤ limit := by
  cases m with
  | infinite => exact le_rfl
  | finite v => exact min_le_left ..

theorem nearestNat_mono (limit : Nat) : Monotone (nearestNat limit) := by
  intro m m' le
  cases m' with
  | infinite => exact nearestNat_le limit m
  | finite w =>
    cases m with
    | infinite => exact (not_infinite_le le).elim
    | finite v =>
      have units := finite_le_finite.mp le
      exact min_le_min_left limit (Nat.div_le_div_right (by omega))

theorem floorNat_le (limit : Nat) (m : Magnitude) : floorNat limit m ≤ limit := by
  cases m with
  | infinite => exact le_rfl
  | finite v => exact min_le_left ..

theorem floorNat_mono (limit : Nat) : Monotone (floorNat limit) := by
  intro m m' le
  cases m' with
  | infinite => exact floorNat_le limit m
  | finite w =>
    cases m with
    | infinite => exact (not_infinite_le le).elim
    | finite v => exact min_le_min_left limit (Nat.div_le_div_right (finite_le_finite.mp le))

/-- Numbers that are four times as large have another nearest whole number, unless that is nothing
or limited. -/
theorem nearestNat_lt_nearestNat_four_mul (some : nearestNat limit (finite v) ≠ 0)
    (free : nearestNat limit (finite v) ≠ limit) :
    nearestNat limit (finite v) < nearestNat limit (finite (4 * v)) := by
  have pos : 0 < 2 * unitsPerOne := Nat.mul_pos Nat.two_pos unitsPerOne_pos
  have below := Nat.div_mul_le_self (2 * v + unitsPerOne) (2 * unitsPerOne)
  simp only [nearestNat] at some free ⊢
  generalize (2 * v + unitsPerOne) / (2 * unitsPerOne) = q at below some free ⊢
  have one : 1 * (2 * unitsPerOne) ≤ q * (2 * unitsPerOne) := Nat.mul_le_mul_right _ (by omega)
  have next : q + 1 ≤ (2 * (4 * v) + unitsPerOne) / (2 * unitsPerOne) := by
    rw [Nat.le_div_iff_mul_le pos, Nat.succ_mul]
    omega
  omega

/-! ### Whole numbers -/

/-- The magnitude of a whole number, however large it is. -/
def whole (n : Nat) : Magnitude := finite (n * unitsPerOne)


/-- A whole number up to `2⁵³` is exact. -/
theorem ofRatio_one (le : n ≤ 2 ^ 53) : ofRatio n 1 = whole n := by
  have exact := ofUnits_mul (representable_of_le le).mul_unitsPerOne (mul_unitsPerOne_lt le)
    Nat.one_pos
  rwa [Nat.mul_one] at exact

/-- So is a product up to `2⁵³`. -/
theorem mulNat_whole (le : n * k ≤ 2 ^ 53) : mulNat k (whole n) = whole (n * k) := by
  have exact := ofUnits_mul (representable_of_le le).mul_unitsPerOne (mul_unitsPerOne_lt le)
    Nat.one_pos
  rw [Nat.mul_one] at exact
  rw [whole, mulNat, Nat.mul_right_comm, exact, whole]

theorem nearestNat_whole (limit n : Nat) : nearestNat limit (whole n) = min limit n := by
  have half : (2 * (n * unitsPerOne) + unitsPerOne) / (2 * unitsPerOne) = n := by
    refine Nat.div_eq_of_lt_le ?_ ?_ <;> linarith [unitsPerOne_pos]
  rw [whole, nearestNat, half]

theorem floorNat_whole (limit n : Nat) : floorNat limit (whole n) = min limit n := by
  rw [whole, floorNat, Nat.mul_div_cancel n unitsPerOne_pos]

/-- Rounding a larger number does not fall below a representable one. -/
theorem whole_le_ofRatio (rep : Representable v) (le : v ≤ n) : whole v ≤ ofRatio n 1 :=
  le_ofUnits rep.mul_unitsPerOne Nat.one_pos
    ((Nat.mul_one _).trans_le (Nat.mul_le_mul_right unitsPerOne le))

/-- Nor does rounding a larger product. -/
theorem whole_le_mulNat (rep : Representable v) (le : v ≤ w * k) :
    whole v ≤ mulNat k (whole w) := by
  refine le_ofUnits rep.mul_unitsPerOne Nat.one_pos ?_
  calc v * unitsPerOne * 1 ≤ w * k * unitsPerOne :=
        (Nat.mul_one _).trans_le (Nat.mul_le_mul_right unitsPerOne le)
    _ = w * unitsPerOne * k := Nat.mul_right_comm ..

/-- The whole part of a whole number, with a limit that is representable, is exact. -/
theorem floorNat_ofRatio_one {limit : Nat} (le : limit ≤ 2 ^ 53) (n : Nat) :
    floorNat limit (ofRatio n 1) = min limit n := by
  by_cases small : n ≤ 2 ^ 53
  · rw [ofRatio_one small, floorNat_whole]
  · have large : limit ≤ n := by omega
    have reaches := floorNat_mono limit (whole_le_ofRatio (representable_of_le le) large)
    rw [floorNat_whole, min_self] at reaches
    rw [min_eq_left large]
    exact (floorNat_le limit _).antisymm reaches

end Magnitude

end TriggerSheet
