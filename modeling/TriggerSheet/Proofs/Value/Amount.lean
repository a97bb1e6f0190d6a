import TriggerSheet.Proofs.Value.Duration

/-!
# How long a written duration is

The amount of a duration is rounded where it is read, where it is multiplied, and last to whole
nanoseconds. Each of these steps keeps the order, so the composition does; whole numbers go through
them unchanged as long as they have 53 bits, and what reaches the limit stays there. Letter case
makes no difference to the unit but for one letter: the long s spells seconds and selects
milliseconds.

## Main definitions

* `Duration.Unit.worth` — the nanoseconds of a unit
* `Duration.Unit.Selects` — the spellings that select a unit
* `Duration.ofWhole` — the duration of a whole number of units

## Main results

* `Duration.parse_whole` — whole numbers are exact, saturate, and keep their order
* `Duration.parse_respelled_iff` — which spellings of a unit are read alike
-/

namespace TriggerSheet.Duration

open Text (isBlank trim lower)

-- These numbers are never computed.
attribute [local irreducible] Magnitude.unitsPerOne Magnitude.unitsLimit

variable {n m : Nat} {unit : Unit} {u v : List Char} {text : String}

theorem eq_of_nanos {d d' : Duration} (same : d.nanos = d'.nanos) : d = d' := congrArg mk same

/-! ### Order -/

theorem toMillis_mono (unit : Unit) : Monotone unit.toMillis := by
  cases unit with
  | milliseconds => exact monotone_id
  | seconds => exact Magnitude.mulNat_mono 1000

theorem nanos_ofMagnitude_mono : Monotone fun millis => (ofMagnitude millis).nanos :=
  (Magnitude.nearestNat_mono readLimit).comp (Magnitude.mulNat_mono 1000000)

theorem nanos_ofMagnitude_le (millis : Magnitude) : (ofMagnitude millis).nanos ≤ readLimit :=
  Magnitude.nearestNat_le ..

/-! ### Whole numbers -/

/-- The nanoseconds of a unit. -/
def Unit.worth : Unit → Nat
  | milliseconds => 1000000
  | seconds => 1000000000

/-- Nothing, or a spelling of their own, selects milliseconds, and an `s` of the ASCII range selects
seconds. -/
def Unit.Selects : Unit → List Char → Prop
  | milliseconds, u => u = [] ∨ Unit.milliseconds.Spells u
  | seconds, u => lower u = ['s']

/-- The duration of a whole number of units. -/
def ofWhole (unit : Unit) (n : Nat) : Duration :=
  ofMagnitude (unit.toMillis (Magnitude.ofRatio n 1))

theorem nanos_ofWhole_mono (unit : Unit) : Monotone fun n => (ofWhole unit n).nanos :=
  (nanos_ofMagnitude_mono.comp (toMillis_mono unit)).comp Magnitude.ofRatio_one_mono

/-- Whole numbers of milliseconds are exact as long as their nanoseconds have 53 bits. -/
theorem nanos_ofMagnitude_whole (le : n * 1000000 ≤ 2 ^ 53) :
    (ofMagnitude (Magnitude.whole n)).nanos = n * 1000000 := by
  rw [ofMagnitude, Magnitude.mulNat_whole le, Magnitude.nearestNat_whole]
  exact Nat.min_eq_right (le.trans (by decide))

/-- What has `2⁶⁴` nanoseconds or more stays at the limit. -/
theorem nanos_ofMagnitude_of_le {millis : Magnitude} (le : Magnitude.whole n ≤ millis)
    (large : 2 ^ 64 ≤ n * 1000000) : (ofMagnitude millis).nanos = readLimit := by
  have reaches : Magnitude.whole (2 ^ 64) ≤ Magnitude.mulNat 1000000 millis :=
    (Magnitude.whole_le_mulNat (Magnitude.representable_two_pow 64) large).trans
      (Magnitude.mulNat_mono 1000000 le)
  refine le_antisymm (nanos_ofMagnitude_le millis) ?_
  calc readLimit = Magnitude.nearestNat readLimit (Magnitude.whole (2 ^ 64)) := by
        rw [Magnitude.nearestNat_whole]
        decide
    _ ≤ (ofMagnitude millis).nanos := Magnitude.nearestNat_mono readLimit reaches

theorem toMillis_seconds_ofRatio (le : n * 1000 ≤ 2 ^ 53) :
    Unit.seconds.toMillis (Magnitude.ofRatio n 1) = Magnitude.whole (n * 1000) := by
  have amount : n ≤ 2 ^ 53 := (Nat.le_mul_of_pos_right n (by norm_num)).trans le
  rw [Unit.toMillis, Magnitude.ofRatio_one amount, Magnitude.mulNat_whole le]

theorem nanos_ofWhole (le : n * unit.worth ≤ 2 ^ 53) :
    (ofWhole unit n).nanos = n * unit.worth := by
  cases unit with
  | milliseconds =>
    have amount : n ≤ 2 ^ 53 := (Nat.le_mul_of_pos_right n (by decide)).trans le
    rw [ofWhole, Unit.toMillis, Magnitude.ofRatio_one amount, nanos_ofMagnitude_whole le]
    rfl
  | seconds =>
    have nanos : n * 1000 * 1000000 = n * Unit.seconds.worth := Nat.mul_assoc ..
    have millis : n * 1000 ≤ 2 ^ 53 :=
      (Nat.le_mul_of_pos_right _ (by norm_num)).trans (nanos.trans_le le)
    rw [ofWhole, toMillis_seconds_ofRatio millis, nanos_ofMagnitude_whole (nanos.trans_le le),
      nanos]

/-- The least number of units that reaches the limit has few bits, so it is exact before it is
limited. -/
theorem nanos_ofWhole_of_le (le : 2 ^ 64 ≤ n * unit.worth) :
    (ofWhole unit n).nanos = readLimit := by
  cases unit with
  | milliseconds =>
    have least : 18446744073710 ≤ n := by simp only [Unit.worth] at le; omega
    have amount := Magnitude.ofRatio_one_mono least
    simp only [Magnitude.ofRatio_one (n := 18446744073710) (by norm_num)] at amount
    exact nanos_ofMagnitude_of_le amount (by norm_num)
  | seconds =>
    have least : 18446744074 ≤ n := by simp only [Unit.worth] at le; omega
    have millis := toMillis_mono .seconds (Magnitude.ofRatio_one_mono least)
    simp only [toMillis_seconds_ofRatio (n := 18446744074) (by norm_num)] at millis
    exact nanos_ofMagnitude_of_le millis (by norm_num)

theorem Unit.Selects.optional (selects : unit.Selects u) : Unit.Optional u := by
  cases unit with
  | milliseconds => exact selects.imp_right fun spells => ⟨_, spells⟩
  | seconds =>
    obtain ⟨s, rest, rfl, folds, none⟩ := List.map_eq_cons_iff.mp selects
    obtain rfl := List.map_eq_nil_iff.mp none
    refine .inr ⟨.seconds, ?_⟩
    rcases Text.toLower_eq folds with rfl | code
    · rfl
    · obtain rfl : s = 'S' := Char.toNat_inj.mp (by simpa using code)
      rfl

theorem Unit.Selects.selected (selects : unit.Selects u) : Unit.selected u = unit := by
  cases unit with
  | milliseconds =>
    rcases selects with rfl | spells
    · rfl
    · obtain ⟨m, s, rfl, -⟩ := spells.milliseconds
      exact if_neg (by simp [lower])
  | seconds => exact if_pos selects

/-- A number is read from its digits, with any zeros in front. -/
theorem parse_paddedDigits (selects : unit.Selects u) (zeros n : Nat) :
    parse (String.ofList (paddedDigits zeros n ++ u)) = .ok (ofWhole unit n) := by
  have none : ∀ c ∈ ([] : List Char), isBlank c = true := fun c mem => absurd mem List.not_mem_nil
  have laid : LaidOut isDigit (String.ofList (paddedDigits zeros n ++ u)).toList
      (paddedDigits zeros n) u :=
    ⟨numeral_paddedDigits zeros n, selects.optional, [], [], [], by simp, none, none, none⟩
  rw [parse_ok laid, selects.selected, Decimal.ofNumeral_paddedDigits]
  rfl

/-- A whole number of milliseconds or seconds, with any zeros in front, is exact up to `2⁵³`
nanoseconds and limited to `2⁶⁴ - 1` of them, and a larger number of the same unit is not
shorter. -/
theorem parse_whole (selects : unit.Selects u) (zeros n : Nat) :
    ∃ d, parse (String.ofList (paddedDigits zeros n ++ u)) = .ok d ∧
      (n * unit.worth ≤ 2 ^ 53 → d.nanos = n * unit.worth) ∧
      (2 ^ 64 ≤ n * unit.worth → d.nanos = 2 ^ 64 - 1) ∧
      ∀ u' zeros' m d', unit.Selects u' → n ≤ m →
        parse (String.ofList (paddedDigits zeros' m ++ u')) = .ok d' → d.nanos ≤ d'.nanos := by
  refine ⟨ofWhole unit n, parse_paddedDigits selects zeros n, nanos_ofWhole, nanos_ofWhole_of_le,
    fun u' zeros' m d' selects' le reads => ?_⟩
  rw [parse_paddedDigits selects' zeros' m] at reads
  obtain rfl := Except.ok.inj reads
  exact nanos_ofWhole_mono unit le

theorem parse_whole_sevenSeconds :
    Unit.seconds.Selects ['S'] ∧ parse "007S" = .ok ⟨7000000000⟩ ∧
      ∃ d, parse "18446744074S" = .ok d ∧ d.nanos = 2 ^ 64 - 1 := by
  have selects : Unit.seconds.Selects ['S'] := rfl
  obtain ⟨⟨nanos⟩, seven, exact, -⟩ := parse_whole selects 2 7
  obtain ⟨d, many, -, limited, -⟩ := parse_whole selects 0 18446744074
  obtain rfl : nanos = 7000000000 := exact (by decide)
  exact ⟨selects, seven, d, many, limited (by decide)⟩

/-! ### Spellings of a unit -/

/-- A long s alone is the one spelling of a unit that selects another. -/
theorem Unit.Spells.selected (spells : unit.Spells u) :
    Unit.selected u = if u = ['ſ'] then Unit.milliseconds else unit := by
  cases unit with
  | milliseconds =>
    obtain ⟨m, s, rfl, -⟩ := spells.milliseconds
    rw [if_neg (by simp)]
    exact if_neg (by simp [lower])
  | seconds => obtain ⟨s, rfl, rfl | rfl | rfl⟩ := spells.seconds <;> rfl

/-- Multiplying by 1000 first makes the product of units four times as large at least. -/
theorem four_mul_le {units product : Nat} (rep : Magnitude.Representable units)
    (is : Magnitude.mulNat 1000000 (.finite units) = .finite product) :
    Magnitude.finite (4 * product) ≤
      Magnitude.mulNat 1000000 (Unit.seconds.toMillis (.finite units)) := by
  -- Rounding does not pass the products with powers of two, and `1000000` is below `2²⁰`, while
  -- `1000` and `1000000` are above `2⁹` and `2¹³`.
  have below : product ≤ units * 2 ^ 20 := by
    refine (Magnitude.rounded_of_ofUnits is).symm.trans_le ?_
    refine Magnitude.rounded_le (rep.mul_two_pow 20) Nat.one_pos ?_
    rw [Nat.mul_one]
    exact Nat.mul_le_mul_left units (by norm_num)
  have millis : Magnitude.finite (units * 2 ^ 9) ≤ Unit.seconds.toMillis (.finite units) := by
    refine Magnitude.le_ofUnits (rep.mul_two_pow 9) Nat.one_pos ?_
    rw [Nat.mul_one]
    exact Nat.mul_le_mul_left units (by norm_num)
  have above : Magnitude.finite (units * 2 ^ 22) ≤
      Magnitude.mulNat 1000000 (.finite (units * 2 ^ 9)) := by
    refine Magnitude.le_ofUnits (rep.mul_two_pow 22) Nat.one_pos ?_
    rw [Nat.mul_one, Nat.mul_assoc]
    exact Nat.mul_le_mul_left units (by norm_num)
  have four : Magnitude.finite (4 * product) ≤ Magnitude.finite (units * 2 ^ 22) :=
    Magnitude.finite_le_finite.mpr (by omega)
  exact four.trans (above.trans (Magnitude.mulNat_mono 1000000 millis))

/-- Seconds are longer than as many milliseconds, unless these are nothing or at the limit. -/
theorem nanos_lt_nanos {units : Nat} (rep : Magnitude.Representable units)
    (some : (ofMagnitude (.finite units)).nanos ≠ 0)
    (free : (ofMagnitude (.finite units)).nanos ≠ readLimit) :
    (ofMagnitude (.finite units)).nanos <
      (ofMagnitude (Unit.seconds.toMillis (.finite units))).nanos := by
  cases is : Magnitude.mulNat 1000000 (.finite units) with
  | infinite =>
    refine absurd ?_ free
    rw [ofMagnitude, is]
    rfl
  | finite product =>
    refine lt_of_lt_of_le ?_ (Magnitude.nearestNat_mono readLimit (four_mul_le rep is))
    rw [ofMagnitude, is] at some free ⊢
    exact Magnitude.nearestNat_lt_nearestNat_four_mul some free

/-- An amount of seconds is as long as that of milliseconds if and only if it is nothing, or the
milliseconds are at the limit. -/
theorem ofMagnitude_seconds_eq_iff {amount : Magnitude}
    (rep : ∀ units, amount = .finite units → Magnitude.Representable units) :
    ofMagnitude (Unit.seconds.toMillis amount) = ofMagnitude amount ↔
      ofMagnitude (Unit.seconds.toMillis amount) = ⟨0⟩ ∨ ofMagnitude amount = ⟨readLimit⟩ := by
  cases amount with
  | infinite => exact iff_of_true rfl (.inr rfl)
  | finite units =>
    have rep := rep units rfl
    constructor
    · intro same
      by_contra neither
      obtain ⟨some, free⟩ := not_or.mp neither
      have lt := nanos_lt_nanos rep (fun none => some (same.trans (eq_of_nanos none)))
        fun limit => free (eq_of_nanos limit)
      rw [same] at lt
      exact lt_irrefl _ lt
    · have le : (ofMagnitude (.finite units)).nanos ≤
          (ofMagnitude (Unit.seconds.toMillis (.finite units))).nanos := by
        refine nanos_ofMagnitude_mono (Magnitude.le_ofUnits rep Nat.one_pos ?_)
        exact Nat.mul_le_mul_left units (by norm_num)
      have limit := nanos_ofMagnitude_le (Unit.seconds.toMillis (.finite units))
      rintro (none | full) <;> refine eq_of_nanos (le_antisymm ?_ le)
      · rw [none]
        exact Nat.zero_le _
      · rw [full]
        exact limit

/-- Of an amount and a unit, the unit alone is read differently when it is spelled differently. -/
theorem laidOut_append {a u : String} (amount : Numeral isDigit (trim a.toList))
    (optional : Unit.Optional u.toList) :
    LaidOut isDigit (a ++ u).toList (trim a.toList) u.toList := by
  obtain ⟨before, after, around, blank, blank'⟩ := Text.exists_trim_around a.toList
  refine ⟨amount, optional, before, after, [], ?_, blank, blank', by simp⟩
  rw [String.toList_append]
  conv_lhs => rw [around]
  simp

theorem Unit.Spells.eq_seconds (spells : unit.Spells ['ſ']) : unit = Unit.seconds := by
  cases unit with
  | milliseconds =>
    obtain ⟨m, s, is, -⟩ := spells.milliseconds
    cases is
  | seconds => rfl

/-- Two spellings of a unit are read alike behind an amount, unless one of them alone is the long s:
then the amounts of seconds and milliseconds have to be the same, which is nothing or the limit. -/
theorem parse_respelled_iff {a u v : String} (amount : Numeral isDigit (trim a.toList))
    (spells : unit.Spells u.toList) (spells' : unit.Spells v.toList) :
    parse (a ++ u) = parse (a ++ v) ↔
      (u = "ſ" ↔ v = "ſ") ∨ parse (a ++ "s") = .ok ⟨0⟩ ∨ parse a = .ok ⟨readLimit⟩ := by
  have reads {w : String} (optional : Unit.Optional w.toList) :=
    parse_ok (laidOut_append amount optional)
  generalize written : (Decimal.ofNumeral (trim a.toList)).magnitude = x at reads
  have rep (units : Nat) (is : x = .finite units) : Magnitude.Representable units :=
    Magnitude.representable_of_ofUnits (Nat.pow_pos (by omega)) (written.trans is)
  have bare : parse a = .ok (ofMagnitude x) := by
    have none := reads (w := "") (.inl rfl)
    rwa [String.append_empty] at none
  have second : parse (a ++ "s") = .ok (ofMagnitude (Unit.seconds.toMillis x)) :=
    reads (.inr ⟨.seconds, rfl⟩)
  have iff := ofMagnitude_seconds_eq_iff rep
  have long (w : String) : w.toList = ['ſ'] ↔ w = "ſ" :=
    ⟨fun is => String.toList_inj.mp is, fun is => is ▸ rfl⟩
  rw [reads (.inr ⟨unit, spells⟩), reads (.inr ⟨unit, spells'⟩), bare, second, spells.selected,
    spells'.selected]
  simp only [long, Except.ok.injEq]
  -- One unit is selected in both texts, unless one spelling alone is the long s.
  by_cases isLong : u = "ſ" <;> by_cases isLong' : v = "ſ"
  · simp [isLong, isLong']
  · obtain rfl := Unit.Spells.eq_seconds ((long u).mpr isLong ▸ spells)
    rw [if_pos isLong, if_neg isLong', eq_comm]
    simpa [isLong, isLong', Unit.toMillis] using iff
  · obtain rfl := Unit.Spells.eq_seconds ((long v).mpr isLong' ▸ spells')
    rw [if_neg isLong, if_pos isLong']
    simpa [isLong, isLong', Unit.toMillis] using iff
  · simp [isLong, isLong']

theorem parse_respelled_mixedCase :
    Numeral isDigit (trim " 1.5 ".toList) ∧ Unit.milliseconds.Spells "Mſ".toList ∧
      Unit.milliseconds.Spells "ms".toList ∧ parse (" 1.5 " ++ "Mſ") = parse (" 1.5 " ++ "ms") := by
  have amount : Numeral isDigit (trim " 1.5 ".toList) :=
    @Numeral.pointed isDigit ['1'] ['5'] (by decide) (List.all_eq_true.mp rfl)
      (List.all_eq_true.mp rfl)
  have spells : Unit.milliseconds.Spells "Mſ".toList := rfl
  have spells' : Unit.milliseconds.Spells "ms".toList := rfl
  exact ⟨amount, spells, spells',
    (parse_respelled_iff amount spells spells').mpr (.inl (by decide))⟩

/-- The long s is a spelling of seconds that is read as milliseconds. -/
theorem parse_longS :
    Numeral isDigit (trim "5".toList) ∧ Unit.seconds.Spells "s".toList ∧
      Unit.seconds.Spells "ſ".toList ∧ parse ("5" ++ "s") = .ok ⟨5000000000⟩ ∧
      parse ("5" ++ "ſ") = .ok ⟨5000000⟩ ∧ parse ("5" ++ "s") ≠ parse ("5" ++ "ſ") := by
  have amount : Numeral isDigit (trim "5".toList) :=
    @Numeral.whole isDigit ['5'] (by decide) (List.all_eq_true.mp rfl)
  have seconds : parse ("5" ++ "s") = .ok ⟨5000000000⟩ := by decide +kernel
  have long : parse ("5" ++ "ſ") = .ok ⟨5000000⟩ := by decide +kernel
  refine ⟨amount, rfl, rfl, seconds, long, ?_⟩
  rw [seconds, long]
  decide

end TriggerSheet.Duration
