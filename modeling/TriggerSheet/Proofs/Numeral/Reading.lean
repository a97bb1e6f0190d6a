import Mathlib.Data.List.TakeWhile
import TriggerSheet.Numeral.Decimal
import TriggerSheet.Proofs.Numeral.Rounding
import TriggerSheet.Text.DecimalDigit

/-!
# Reading numerals

A numeral is a run of digits with an optional point, whatever is taken for a digit. The numerals
over the digits of the ASCII range are what is read at the start of a text, up to a character that
cannot go on with them. Of the numerals over the digits of all scripts, these are the ones that are
scientific numerals too, and both readers give them one value.

## Main definitions

* `Numeral` — a numeral over a class of digits
* `Decimal.ofNumeral` — the number that a numeral writes

## Main results

* `Decimal.read?_numeral`, `Decimal.numeral_of_read?` — what is read is a numeral
* `Scientific.ofText?_numeral` — a numeral over the digits of all scripts is a scientific one if and
  only if all its digits are of the ASCII range
* `Scientific.magnitude_plain` — both readers give a numeral one value
* `Decimal.ofNumeral_paddedDigits` — the decimal digits of a number write it, with any zeros in
  front
-/

namespace TriggerSheet

/-- A run of digits with an optional point, some digit standing in front of it or behind it. -/
inductive Numeral (digit : Char → Bool) : List Char → Prop
  | whole {digits : List Char} (filled : digits ≠ []) (all : ∀ c ∈ digits, digit c = true) :
      Numeral digit digits
  | pointed {digits fraction : List Char} (filled : digits ≠ [])
      (all : ∀ c ∈ digits, digit c = true) (all' : ∀ c ∈ fraction, digit c = true) :
      Numeral digit (digits ++ '.' :: fraction)
  | fraction {digits : List Char} (filled : digits ≠ []) (all : ∀ c ∈ digits, digit c = true) :
      Numeral digit ('.' :: digits)

variable {s n rest digits fraction : List Char} {c : Char}

namespace Text

variable {p : Char → Bool} {before behind : List Char}

/-- A run ends in front of a text that does not begin with another of its characters. -/
theorem takeWhile_append_of_head? (passes : ∀ c ∈ before, p c = true)
    (stops : ∀ c ∈ behind.head?, p c = false) : (before ++ behind).takeWhile p = before := by
  rw [List.takeWhile_append_of_pos passes]
  cases behind with
  | nil => simp
  | cons c rest => simp [stops c rfl]

theorem dropWhile_append_of_head? (passes : ∀ c ∈ before, p c = true)
    (stops : ∀ c ∈ behind.head?, p c = false) : (before ++ behind).dropWhile p = behind := by
  rw [List.dropWhile_append_of_pos passes]
  cases behind with
  | nil => rfl
  | cons c rest => simp [stops c rfl]

end Text

/-! ### Numerals -/

theorem Numeral.ne_nil {digit : Char → Bool} (numeral : Numeral digit n) : n ≠ [] := by
  cases numeral with
  | whole filled => exact filled
  | pointed => exact List.append_ne_nil_of_right_ne_nil _ (List.cons_ne_nil _ _)
  | fraction => exact List.cons_ne_nil _ _

/-- A numeral consists of digits and points. -/
theorem Numeral.mem {digit : Char → Bool} (numeral : Numeral digit n) :
    ∀ c ∈ n, digit c = true ∨ c = '.' := by
  intro c mem
  cases numeral with
  | whole _ all => exact .inl (all c mem)
  | pointed _ all all' =>
    rcases List.mem_append.mp mem with mem | mem
    · exact .inl (all c mem)
    · rcases List.mem_cons.mp mem with rfl | mem
      · exact .inr rfl
      · exact .inl (all' c mem)
  | fraction _ all =>
    rcases List.mem_cons.mp mem with rfl | mem
    · exact .inr rfl
    · exact .inl (all c mem)

/-- More characters may be taken for digits. -/
theorem Numeral.mono {digit digit' : Char → Bool} (more : ∀ c, digit c = true → digit' c = true)
    (numeral : Numeral digit n) : Numeral digit' n := by
  cases numeral with
  | whole filled all => exact .whole filled fun c mem => more c (all c mem)
  | pointed filled all all' =>
    exact .pointed filled (fun c mem => more c (all c mem)) fun c mem => more c (all' c mem)
  | fraction filled all => exact .fraction filled fun c mem => more c (all c mem)

theorem isDigit_iff : isDigit c = true ↔ 48 ≤ c.toNat ∧ c.toNat ≤ 57 := by
  have digit : isDigit c = (decide (48 ≤ c.toNat) && decide (c.toNat ≤ 57)) := rfl
  rw [digit, Bool.and_eq_true, decide_eq_true_iff, decide_eq_true_iff]

/-- The digits of the ASCII range are digits of a script. -/
theorem isDecimalDigit_of_isDigit (digit : isDigit c = true) : Text.isDecimalDigit c = true := by
  have code := isDigit_iff.mp digit
  refine List.any_eq_true.mpr ⟨0x30, List.mem_cons_self .., ?_⟩
  simp only [Bool.and_eq_true, decide_eq_true_eq]
  omega

/-! ### The reader of plain numerals -/

namespace Decimal

/-- The number that a numeral writes. -/
def ofNumeral (n : List Char) : Decimal :=
  ofDigits (n.takeWhile isDigit) ((n.dropWhile isDigit).drop 1)

theorem ofNumeral_whole (all : ∀ c ∈ digits, isDigit c = true) :
    ofNumeral digits = ofDigits digits [] := by
  rw [ofNumeral, List.takeWhile_eq_self_iff.mpr all, List.dropWhile_eq_nil_iff.mpr all]
  rfl

theorem ofNumeral_pointed (all : ∀ c ∈ digits, isDigit c = true) (fraction : List Char) :
    ofNumeral (digits ++ '.' :: fraction) = ofDigits digits fraction := by
  have point : ∀ c ∈ ('.' :: fraction).head?, isDigit c = false :=
    fun c first => Option.some.inj first ▸ by decide
  rw [ofNumeral, Text.takeWhile_append_of_head? all point,
    Text.dropWhile_append_of_head? all point]
  rfl

/-- What cannot go on with a numeral. -/
def Ends (rest : List Char) : Prop := ∀ c ∈ rest.head?, isDigit c = false ∧ c ≠ '.'

theorem ends_nil : Ends [] := fun _ first => absurd first (Option.not_mem_none _)

theorem Ends.not_isDigit (ends : Ends rest) : ∀ c ∈ rest.head?, isDigit c = false :=
  fun c first => (ends c first).1

theorem read?_whole (filled : digits ≠ []) (all : ∀ c ∈ digits, isDigit c = true)
    (ends : Ends rest) : read? (digits ++ rest) = some (ofDigits digits [], rest) := by
  have stops := ends.not_isDigit
  simp only [read?, Text.takeWhile_append_of_head? all stops,
    Text.dropWhile_append_of_head? all stops]
  split
  next first => exact absurd rfl (ends '.' rfl).2
  next => simp [filled]

theorem read?_pointed (all : ∀ c ∈ digits, isDigit c = true)
    (all' : ∀ c ∈ fraction, isDigit c = true) (filled : digits ≠ [] ∨ fraction ≠ [])
    (ends : Ends rest) :
    read? (digits ++ '.' :: (fraction ++ rest)) = some (ofDigits digits fraction, rest) := by
  have point : ∀ c ∈ ('.' :: (fraction ++ rest)).head?, isDigit c = false :=
    fun c first => Option.some.inj first ▸ by decide
  have stops := ends.not_isDigit
  have some : ¬(digits.isEmpty && fraction.isEmpty) = true := by
    rw [Bool.and_eq_true, List.isEmpty_iff, List.isEmpty_iff, not_and_or]
    exact filled
  simp only [read?, Text.takeWhile_append_of_head? all point,
    Text.dropWhile_append_of_head? all point, Text.takeWhile_append_of_head? all' stops,
    Text.dropWhile_append_of_head? all' stops, if_neg some]

/-- A numeral is read up to what cannot go on with it. -/
theorem read?_numeral (numeral : Numeral isDigit n) (ends : Ends rest) :
    read? (n ++ rest) = some (ofNumeral n, rest) := by
  cases numeral with
  | whole filled all => rw [read?_whole filled all ends, ofNumeral_whole all]
  | pointed filled all all' =>
    rw [List.append_assoc, List.cons_append, read?_pointed all all' (.inl filled) ends,
      ofNumeral_pointed all]
  | @fraction fraction filled all =>
    have none : ∀ c ∈ ([] : List Char), isDigit c = true := fun c mem => absurd mem List.not_mem_nil
    have point := ofNumeral_pointed none fraction
    rw [List.nil_append] at point
    rw [point]
    exact read?_pointed none all (.inr filled) ends

/-- What is read is a numeral. -/
theorem numeral_of_read? {d : Decimal} (reads : read? s = some (d, rest)) :
    ∃ n, s = n ++ rest ∧ Numeral isDigit n := by
  have all : ∀ c ∈ s.takeWhile isDigit, isDigit c = true := List.all_eq_true.mp List.all_takeWhile
  have whole := List.takeWhile_append_dropWhile (p := isDigit) (l := s)
  simp only [read?] at reads
  split at reads
  next behind point =>
    have all' : ∀ c ∈ behind.takeWhile isDigit, isDigit c = true :=
      List.all_eq_true.mp List.all_takeWhile
    have later := List.takeWhile_append_dropWhile (p := isDigit) (l := behind)
    split at reads
    · cases reads
    next filled =>
      obtain ⟨-, rfl⟩ := Prod.mk.inj (Option.some.inj reads)
      refine ⟨s.takeWhile isDigit ++ '.' :: behind.takeWhile isDigit, ?_, ?_⟩
      · rw [List.append_assoc, List.cons_append, later, ← point, whole]
      · cases front : s.takeWhile isDigit with
        | nil =>
          refine .fraction (fun none => filled ?_) all'
          rw [front, none]
          rfl
        | cons c more => exact .pointed (List.cons_ne_nil _ _) (front ▸ all) all'
  next =>
    split at reads
    · cases reads
    next filled =>
      obtain ⟨-, rfl⟩ := Prod.mk.inj (Option.some.inj reads)
      exact ⟨_, whole.symm, .whole (fun none => filled (by rw [none]; rfl)) all⟩

end Decimal

/-! ### The reader of scientific numerals -/

namespace Scientific

/-- A numeral has no sign. -/
theorem readSign_numeral (numeral : Numeral Text.isDecimalDigit n) : readSign n = (false, n) := by
  unfold readSign
  split
  · rcases numeral.mem '-' (List.mem_cons_self ..) with digit | point <;> contradiction
  · rcases numeral.mem '+' (List.mem_cons_self ..) with digit | point <;> contradiction
  · rfl

/-- A numeral over the digits of the ASCII range is a scientific numeral. -/
theorem ofText?_numeral (numeral : Numeral isDigit n) :
    ofText? n = some ⟨false, Decimal.ofNumeral n, 0⟩ := by
  have unsigned := readSign_numeral (numeral.mono fun _ => isDecimalDigit_of_isDigit)
  have reads := Decimal.read?_numeral numeral Decimal.ends_nil
  rw [List.append_nil] at reads
  simp only [ofText?, unsigned, reads, readExponent?, Option.map_some]

/-- Of the numerals over the digits of all scripts, no other one is. -/
theorem numeral_of_ofText? {x : Scientific} (numeral : Numeral Text.isDecimalDigit n)
    (reads : ofText? n = some x) : Numeral isDigit n := by
  simp only [ofText?, readSign_numeral numeral] at reads
  split at reads
  · cases reads
  next d rest read =>
    obtain ⟨plain, rfl, ascii⟩ := Decimal.numeral_of_read? read
    obtain ⟨e, exponent, -⟩ := Option.map_eq_some_iff.mp reads
    cases rest with
    | nil => rwa [List.append_nil]
    | cons c rest =>
      -- A power of ten would begin with a letter.
      simp only [readExponent?] at exponent
      split at exponent
      next marked =>
        simp only [Bool.and_eq_true, Bool.or_eq_true, beq_iff_eq] at marked
        have mem : c ∈ plain ++ c :: rest := List.mem_append_right _ (List.mem_cons_self ..)
        rcases marked.1.1 with rfl | rfl <;>
          rcases numeral.mem _ mem with digit | point <;> contradiction
      · cases exponent

/-- A number below `10⁻⁴⁰⁰` is too small for half a unit. -/
theorem double_mul_unitsPerOne_lt {k places : Nat} (tiny : k.log2 / 3 + 1 + 400 < places) :
    2 * (k * Magnitude.unitsPerOne) < Nat.pow 10 places := by
  have digits : k < 10 ^ (k.log2 / 3 + 1) :=
    calc k < 2 ^ (k.log2 + 1) := Nat.lt_log2_self
      _ ≤ 2 ^ (3 * (k.log2 / 3 + 1)) := Nat.pow_le_pow_right Nat.two_pos (by omega)
      _ = 8 ^ (k.log2 / 3 + 1) := Nat.pow_mul ..
      _ ≤ 10 ^ (k.log2 / 3 + 1) := Nat.pow_le_pow_left (by omega) _
  have units : 2 * Magnitude.unitsPerOne ≤ 10 ^ 400 := by
    have bits : 1 + 1074 ≤ 3 * 400 := by omega
    rw [Magnitude.unitsPerOne_eq]
    generalize 1074 = place, 400 = power at bits ⊢
    calc 2 * 2 ^ place = 2 ^ (1 + place) := (Nat.pow_add 2 1 place).symm
      _ ≤ 2 ^ (3 * power) := Nat.pow_le_pow_right Nat.two_pos bits
      _ = 8 ^ power := Nat.pow_mul ..
      _ ≤ 10 ^ power := Nat.pow_le_pow_left (by omega) _
  rw [Nat.pow_eq]
  generalize 400 = power at tiny units
  calc 2 * (k * Magnitude.unitsPerOne) = k * (2 * Magnitude.unitsPerOne) := by ring
    _ ≤ k * 10 ^ power := Nat.mul_le_mul_left k units
    _ < 10 ^ (k.log2 / 3 + 1) * 10 ^ power :=
        Nat.mul_lt_mul_of_pos_right digits (Nat.pow_pos (by omega))
    _ = 10 ^ (k.log2 / 3 + 1 + power) := (Nat.pow_add ..).symm
    _ ≤ 10 ^ places := Nat.pow_le_pow_right (by omega) tiny.le

/-- Both readers of numerals give a numeral without a power of ten one value. -/
theorem magnitude_plain (d : Decimal) : (Scientific.mk false d 0).magnitude = d.magnitude := by
  obtain ⟨k, places⟩ := d
  have pos : 0 < Nat.pow 10 places := Nat.pow_pos (by omega)
  simp only [Scientific.magnitude, Decimal.magnitude]
  split_ifs with zero large tiny whole
  · rw [zero, Magnitude.ofRatio_zero pos]
  · omega
  · exact (Magnitude.ofRatio_of_lt (double_mul_unitsPerOne_lt (by omega))).symm
  · obtain rfl : places = 0 := by omega
    have one : Nat.pow 10 ((0 : Int) - ((0 : Nat) : Int)).toNat = 1 := rfl
    rw [one, Nat.mul_one]
  · have same : (-((0 : Int) - (places : Int))).toNat = places := by omega
    rw [same]

end Scientific

/-! ### Digits of a number -/

/-- The decimal digits of a number, with some zeros in front. -/
def paddedDigits (zeros k : Nat) : List Char := List.replicate zeros '0' ++ Nat.toDigits 10 k

theorem digitsValue_paddedDigits (zeros k : Nat) : digitsValue (paddedDigits zeros k) = k := by
  have value (s : List Char) : digitsValue s = Nat.ofDigitChars 10 s 0 := rfl
  rw [value, paddedDigits, Nat.ofDigitChars_append, Nat.ofDigitChars_replicate_zero, Nat.mul_zero,
    Nat.ofDigitChars_ten_toDigits]

theorem isDigit_of_mem_paddedDigits {zeros k : Nat} :
    ∀ c ∈ paddedDigits zeros k, isDigit c = true := by
  intro c mem
  rcases List.mem_append.mp mem with mem | mem
  · rw [List.eq_of_mem_replicate mem]
    decide
  · exact Nat.isDigit_of_mem_toDigits (by omega) (by omega) mem

theorem paddedDigits_ne_nil (zeros k : Nat) : paddedDigits zeros k ≠ [] :=
  List.append_ne_nil_of_right_ne_nil _ Nat.toDigits_ne_nil

/-- The decimal digits of a number are a numeral, -/
theorem numeral_paddedDigits (zeros k : Nat) : Numeral isDigit (paddedDigits zeros k) :=
  .whole (paddedDigits_ne_nil zeros k) isDigit_of_mem_paddedDigits

/-- and it writes this number. -/
theorem Decimal.ofNumeral_paddedDigits (zeros k : Nat) :
    ofNumeral (paddedDigits zeros k) = ⟨k, 0⟩ := by
  rw [ofNumeral_whole isDigit_of_mem_paddedDigits, ofDigits, List.append_nil,
    digitsValue_paddedDigits]
  rfl

end TriggerSheet
