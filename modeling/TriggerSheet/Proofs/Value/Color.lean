import TriggerSheet.Proofs.Numeral.Reading
import TriggerSheet.Proofs.Text.Fold
import TriggerSheet.Value.Color

/-!
# Canonical colors

The canonical text of a color is read as a color again, and as the same one: the two readers of
colors, of hexadecimal digits and of a function's numbers, both give back the channels that the
canonical text was written from. The number of a color is these channels, a byte each, so it does
not tell in which of the two forms the color was written.

## Main definitions

* `Channels.Bytes` — every channel fits into a byte
* `Color.function`, `Color.signedFunction` — the functional form of three channels, and of any three
  whole numbers
* `Color.upperHex` — the lowest hexadecimal digits of a number
* `Color.sixDigits`, `Color.hexNumber?` — what three or six digits stand for, and the number that
  digits write
* `Color.Agrees` — a text is read as a color with the canonical text and the number of another
* `Color.Normal` — what is said of a color and the text that it was read from

## Main results

* `Color.parse_signedFunction` — a functional form is read as its numbers without their signs, up to
  255
* `Color.hexChannels?_hexBytes` — the digits of three bytes are read as these bytes
* `Color.bytes_of_read?` — whatever is read is bytes
* `Color.canonical_of_digits` — digits are written as they were read, but for the case of letters
* `Color.normal_of_parse` — every color that is read is normal
-/

namespace TriggerSheet

open Text (isBlank trim lower)

/-- Every channel fits into a byte. -/
structure Channels.Bytes (c : Channels) : Prop where
  red : c.red ≤ 255
  green : c.green ≤ 255
  blue : c.blue ≤ 255

theorem Channels.Bytes.packed_lt {c : Channels} (bytes : c.Bytes) : c.packed < 2 ^ 24 := by
  have red := bytes.red
  have green := bytes.green
  have blue := bytes.blue
  rw [Channels.packed]
  omega

/-- The number of a color determines its channels. -/
theorem Channels.Bytes.eq_of_packed {c d : Channels} (bytes : c.Bytes) (bytes' : d.Bytes)
    (same : c.packed = d.packed) : c = d := by
  obtain ⟨r, g, b⟩ := c
  obtain ⟨r', g', b'⟩ := d
  obtain ⟨red, green, blue⟩ := bytes
  obtain ⟨red', green', blue'⟩ := bytes'
  simp only [Channels.packed] at *
  obtain rfl : r = r' := by omega
  obtain rfl : g = g' := by omega
  obtain rfl : b = b' := by omega
  rfl

namespace Color

variable {s rest digits : List Char} {c d : Color} {text : String}

/-! ### Numbers in a text -/

theorem numbersFrom_eq_drop (skip : Nat) (s : List Char) :
    numbersFrom skip s = numbersFrom 0 (s.drop skip) := by
  induction s generalizing skip with
  | nil => rw [List.drop_nil, numbersFrom, numbersFrom]
  | cons c rest ih =>
    cases skip with
    | zero => rfl
    | succ skip =>
      rw [numbersFrom, if_pos (Nat.succ_ne_zero skip), List.drop_succ_cons]
      exact ih skip

/-- Nothing but digits begins a number. -/
theorem numbersFrom_cons_of_not {c : Char} (plain : Text.isDecimalDigit c = false)
    (rest : List Char) : numbersFrom 0 (c :: rest) = numbersFrom 0 rest := by
  rw [numbersFrom, if_neg (by decide), plain, if_neg Bool.false_ne_true]

/-- A run of digits is a number, if neither a digit nor a point is behind it. -/
theorem numberLength_digits (all : ∀ c ∈ digits, Text.isDecimalDigit c = true)
    (stops : ∀ c ∈ rest.head?, Text.isDecimalDigit c = false ∧ c ≠ '.') :
    numberLength (digits ++ rest) = digits.length := by
  have whole := Text.takeWhile_append_of_head? all fun c first => (stops c first).1
  rw [numberLength, whole, List.drop_left]
  split
  next => exact absurd rfl (stops '.' rfl).2
  next => rfl

/-- A number of known length is found first. -/
theorem numbersFrom_of_numberLength {n : List Char} {first : Char} (begins : n.head? = some first)
    (digit : Text.isDecimalDigit first = true) (length : numberLength (n ++ rest) = n.length) :
    numbersFrom 0 (n ++ rest) = n :: numbersFrom 0 rest := by
  obtain ⟨more, rfl⟩ := List.head?_eq_some_iff.mp begins
  rw [List.cons_append] at length ⊢
  rw [numbersFrom, if_neg (by decide), if_pos digit]
  simp only [length]
  -- The characters behind the first one are skipped.
  rw [numbersFrom_eq_drop, List.length_cons, Nat.add_sub_cancel, List.drop_left,
    ← List.length_cons (a := first), ← List.cons_append, List.take_left]

theorem numbersFrom_digits (filled : digits ≠ [])
    (all : ∀ c ∈ digits, Text.isDecimalDigit c = true)
    (stops : ∀ c ∈ rest.head?, Text.isDecimalDigit c = false ∧ c ≠ '.') :
    numbersFrom 0 (digits ++ rest) = digits :: numbersFrom 0 rest := by
  obtain ⟨c, more, rfl⟩ := List.exists_cons_of_ne_nil filled
  exact numbersFrom_of_numberLength rfl (all c (List.mem_cons_self ..))
    (numberLength_digits all stops)

/-- The digits of a number, however large it is, write a channel. -/
theorem channel?_toDigits (k : Nat) : channel? (Nat.toDigits 10 k) = some (min 255 k) := by
  have reads := Decimal.read?_numeral (numeral_paddedDigits 0 k) Decimal.ends_nil
  have digits : paddedDigits 0 k = Nat.toDigits 10 k := rfl
  rw [List.append_nil, Decimal.ofNumeral_paddedDigits, digits] at reads
  have one : Nat.pow 10 0 = 1 := rfl
  simp only [channel?, reads, Decimal.magnitude, one]
  rw [Magnitude.floorNat_ofRatio_one (by decide)]

theorem channel?_le {number : List Char} {r : Nat} (reads : channel? number = some r) :
    r ≤ 255 := by
  rw [channel?] at reads
  split at reads
  · exact Option.some.inj reads ▸ Magnitude.floorNat_le 255 _
  · cases reads

/-- The functional form of three channels. -/
def function (c : Channels) : String :=
  "rgb(" ++ toString c.red ++ ", " ++ toString c.green ++ ", " ++ toString c.blue ++ ")"

/-- The digits of a whole number, with a minus sign in front if it is negative. -/
def signedDigits (x : ℤ) : List Char := (if x < 0 then ['-'] else []) ++ Nat.toDigits 10 x.natAbs

/-- The functional form of three whole numbers. -/
def signedFunction (r g b : ℤ) : String :=
  "rgb(" ++ toString r ++ ", " ++ toString g ++ ", " ++ toString b ++ ")"

theorem toList_repr_int (x : ℤ) : x.repr.toList = signedDigits x := by
  cases x with
  | ofNat k => exact Nat.toList_repr
  | negSucc k =>
    have digits : (Nat.repr (k + 1)).toList = Nat.toDigits 10 (k + 1) := Nat.toList_repr
    have text : (Int.negSucc k).repr = "-" ++ Nat.repr (k + 1) := rfl
    rw [text, String.toList_append, digits, signedDigits, if_pos (Int.negSucc_lt_zero k)]
    rfl

theorem toList_signedFunction (r g b : ℤ) :
    (signedFunction r g b).toList = 'r' :: 'g' :: 'b' :: '(' :: (signedDigits r ++ ',' :: ' ' ::
      (signedDigits g ++ ',' :: ' ' :: (signedDigits b ++ [')']))) := by
  simp [signedFunction, toList_repr_int]

theorem function_eq (c : Channels) : function c = signedFunction c.red c.green c.blue := rfl

/-- The number in front of a mark is found first. -/
theorem numbersFrom_toDigits {mark : Char} (k : Nat) (plain : Text.isDecimalDigit mark = false)
    (point : mark ≠ '.') (rest : List Char) :
    numbersFrom 0 (Nat.toDigits 10 k ++ mark :: rest) =
      Nat.toDigits 10 k :: numbersFrom 0 rest := by
  rw [numbersFrom_digits Nat.toDigits_ne_nil ?_ ?_, numbersFrom_cons_of_not plain]
  · exact fun c mem => isDecimalDigit_of_isDigit (@isDigit_of_mem_paddedDigits 0 k c mem)
  · exact fun c first => Option.some.inj first ▸ ⟨plain, point⟩

/-- A minus sign is passed over like anything between the numbers. -/
theorem numbersFrom_signedDigits {mark : Char} (x : ℤ)
    (plain : Text.isDecimalDigit mark = false) (point : mark ≠ '.') (rest : List Char) :
    numbersFrom 0 (signedDigits x ++ mark :: rest) =
      Nat.toDigits 10 x.natAbs :: numbersFrom 0 rest := by
  rw [signedDigits]
  split_ifs
  · rw [List.singleton_append, List.cons_append, numbersFrom_cons_of_not (by decide),
      numbersFrom_toDigits _ plain point]
  · rw [List.nil_append, numbersFrom_toDigits _ plain point]

/-- The numbers of a functional form are read without their signs, each of them limited to a
byte. -/
theorem numberChannels?_signedFunction (r g b : ℤ) :
    numberChannels? (signedFunction r g b).toList =
      some ⟨min 255 r.natAbs, min 255 g.natAbs, min 255 b.natAbs⟩ := by
  have numbers : numbersFrom 0 (signedFunction r g b).toList =
      [Nat.toDigits 10 r.natAbs, Nat.toDigits 10 g.natAbs, Nat.toDigits 10 b.natAbs] := by
    rw [toList_signedFunction, numbersFrom_cons_of_not (by decide),
      numbersFrom_cons_of_not (by decide), numbersFrom_cons_of_not (by decide),
      numbersFrom_cons_of_not (by decide), numbersFrom_signedDigits _ (by decide) (by decide),
      numbersFrom_cons_of_not (by decide), numbersFrom_signedDigits _ (by decide) (by decide),
      numbersFrom_cons_of_not (by decide), numbersFrom_signedDigits _ (by decide) (by decide),
      numbersFrom]
  simp only [numberChannels?, numbers, List.take, List.filterMap_cons, channel?_toDigits,
    List.filterMap_nil]

theorem bytes_of_numberChannels? {c : Channels} (reads : numberChannels? s = some c) :
    c.Bytes := by
  have le : ∀ r ∈ ((numbersFrom 0 s).take 3).filterMap channel?, r ≤ 255 := by
    intro r mem
    obtain ⟨number, -, is⟩ := List.mem_filterMap.mp mem
    exact channel?_le is
  rw [numberChannels?] at reads
  split at reads
  next r g b numbers =>
    rw [numbers] at le
    obtain rfl := Option.some.inj reads
    exact ⟨le r (by simp), le g (by simp), le b (by simp)⟩
  next => cases reads

/-! ### Hexadecimal digits -/

theorem hexDigit?_lt {x : Char} {v : Nat} (reads : hexDigit? x = some v) : v < 16 := by
  have zero : '0'.toNat = 48 := rfl
  have small_a : 'a'.toNat = 97 := rfl
  have capital_a : 'A'.toNat = 65 := rfl
  simp only [hexDigit?, Bool.and_eq_true, decide_eq_true_iff] at reads
  split_ifs at reads with decimal small capital <;> obtain rfl := Option.some.inj reads
  · have le : x.toNat ≤ 57 := decimal.2
    omega
  · have le : x.toNat ≤ 102 := small.2
    omega
  · have le : x.toNat ≤ 70 := capital.2
    omega

/-- A digit is read as itself, also when its letter was written in upper case. -/
theorem hexDigit?_digitChar {v : Nat} (lt : v < 16) :
    hexDigit? (Nat.digitChar v).toUpper.toLower = some v := by
  decide +revert

/-- The digits of a byte are read as its two halves. -/
theorem mapM_hexByte {n : Nat} (le : n ≤ 255) :
    (lower (hexByte n)).mapM hexDigit? = some [n / 16, n % 16] := by
  have high : hexDigit? (Nat.digitChar (n / 16)).toUpper.toLower = some (n / 16) :=
    hexDigit?_digitChar (by omega)
  have low : hexDigit? (Nat.digitChar (n % 16)).toUpper.toLower = some (n % 16) :=
    hexDigit?_digitChar (by omega)
  simp only [hexByte, lower, List.map_cons, List.map_nil, List.mapM_cons, List.mapM_nil, high, low]
  rfl

/-- The digits of three bytes are read as these bytes. -/
theorem hexChannels?_hexBytes {c : Channels} (bytes : c.Bytes) :
    hexChannels? (lower (hexByte c.red ++ hexByte c.green ++ hexByte c.blue)) = some c := by
  rw [Text.lower_append, Text.lower_append, hexChannels?, List.mapM_append, List.mapM_append,
    mapM_hexByte bytes.red, mapM_hexByte bytes.green, mapM_hexByte bytes.blue]
  have halves (n : Nat) : 16 * (n / 16) + n % 16 = n := Nat.div_add_mod n 16
  simp [halves]

/-- Each of three digits stands for two. -/
theorem hexChannels?_doubled (x y z : Char) :
    hexChannels? [x, x, y, y, z, z] = hexChannels? [x, y, z] := by
  have twice (v : Nat) : 16 * v + v = 17 * v := by omega
  cases red : hexDigit? x <;> cases green : hexDigit? y <;> cases blue : hexDigit? z <;>
    simp [hexChannels?, red, green, blue, twice]

theorem mapM_cons_eq_some {x : Char} {values : List Nat} :
    (x :: digits).mapM hexDigit? = some values ↔ ∃ v more, hexDigit? x = some v ∧
      digits.mapM hexDigit? = some more ∧ values = v :: more := by
  rw [List.mapM_cons]
  constructor
  · intro reads
    obtain ⟨v, first, reads⟩ := Option.bind_eq_some_iff.mp reads
    obtain ⟨more, rest, same⟩ := Option.bind_eq_some_iff.mp reads
    exact ⟨v, more, first, rest, (Option.some.inj same).symm⟩
  · rintro ⟨v, more, first, rest, rfl⟩
    rw [first, rest]
    rfl

theorem length_of_mapM {values : List Nat} (reads : digits.mapM hexDigit? = some values) :
    values.length = digits.length := by
  induction digits generalizing values with
  | nil =>
    obtain rfl : [] = values := Option.some.inj reads
    rfl
  | cons c digits ih =>
    obtain ⟨v, more, -, rest, rfl⟩ := mapM_cons_eq_some.mp reads
    exact congrArg Nat.succ (ih rest)

theorem lt_of_mapM_hexDigit? {values : List Nat} (reads : digits.mapM hexDigit? = some values) :
    ∀ v ∈ values, v < 16 := by
  induction digits generalizing values with
  | nil =>
    obtain rfl : [] = values := Option.some.inj reads
    exact fun v mem => absurd mem List.not_mem_nil
  | cons x digits ih =>
    obtain ⟨v, more, first, rest, rfl⟩ := mapM_cons_eq_some.mp reads
    exact List.forall_mem_cons.mpr ⟨hexDigit?_lt first, ih rest⟩

theorem bytes_of_hexChannels? {c : Channels} (reads : hexChannels? digits = some c) : c.Bytes := by
  obtain ⟨values, all, reads⟩ := Option.bind_eq_some_iff.mp reads
  have lt := lt_of_mapM_hexDigit? all
  split at reads
  next r g b =>
    obtain rfl := Option.some.inj reads
    simp only [List.forall_mem_cons] at lt
    constructor <;> simp only <;> omega
  next r r' g g' b b' =>
    obtain rfl := Option.some.inj reads
    simp only [List.forall_mem_cons] at lt
    constructor <;> simp only <;> omega
  next => cases reads

/-- The lowest `k` hexadecimal digits of a number, in upper case, the highest of them first. -/
def upperHex : Nat → Nat → List Char
  | 0, _ => []
  | k + 1, n => upperHex k (n / 16) ++ [(Nat.digitChar (n % 16)).toUpper]

/-- The digits of the bytes are those of the number that is packed from them. -/
theorem upperHex_packed {c : Channels} (bytes : c.Bytes) :
    upperHex 6 c.packed = hexByte c.red ++ hexByte c.green ++ hexByte c.blue := by
  obtain ⟨r, g, b⟩ := c
  have red : r ≤ 255 := bytes.red
  have green : g ≤ 255 := bytes.green
  have blue : b ≤ 255 := bytes.blue
  have packed : Channels.packed ⟨r, g, b⟩ = r * 65536 + g * 256 + b := rfl
  generalize Channels.packed ⟨r, g, b⟩ = n at packed
  have r₁ : n / 16 / 16 / 16 / 16 / 16 % 16 = r / 16 := by omega
  have r₀ : n / 16 / 16 / 16 / 16 % 16 = r % 16 := by omega
  have g₁ : n / 16 / 16 / 16 % 16 = g / 16 := by omega
  have g₀ : n / 16 / 16 % 16 = g % 16 := by omega
  have b₁ : n / 16 % 16 = b / 16 := by omega
  have b₀ : n % 16 = b % 16 := by omega
  simp only [upperHex, r₁, r₀, g₁, g₀, b₁, b₀]
  rfl

/-! ### Digits as they are written -/

/-- Digits that have values are those of the values, but for the case of their letters. -/
theorem toUpper_of_hexDigit? {x : Char} {v : Nat} (reads : hexDigit? x = some v) :
    x.toUpper = (Nat.digitChar v).toUpper := by
  have all : ∀ n < 128, ∀ v ∈ hexDigit? (Char.ofNat n),
      (Char.ofNat n).toUpper = (Nat.digitChar v).toUpper := by
    decide +kernel
  have ascii : x.toNat < 128 := by
    simp only [hexDigit?, Bool.and_eq_true, decide_eq_true_iff] at reads
    split_ifs at reads with decimal small capital
    · exact Nat.lt_of_le_of_lt decimal.2 (by decide)
    · exact Nat.lt_of_le_of_lt small.2 (by decide)
    · exact Nat.lt_of_le_of_lt capital.2 (by decide)
  have own := all x.toNat ascii v
  rw [Char.ofNat_toNat] at own
  exact own reads

theorem map_toUpper_of_mapM {values : List Nat} (reads : digits.mapM hexDigit? = some values) :
    digits.map Char.toUpper = values.map fun v => (Nat.digitChar v).toUpper := by
  induction digits generalizing values with
  | nil =>
    obtain rfl : [] = values := Option.some.inj reads
    rfl
  | cons x digits ih =>
    obtain ⟨v, more, first, rest, rfl⟩ := mapM_cons_eq_some.mp reads
    rw [List.map_cons, List.map_cons, toUpper_of_hexDigit? first, ih rest]

/-- The digits of a byte are those of its two halves. -/
theorem hexByte_halves {v v' : Nat} (lt : v' < 16) :
    hexByte (16 * v + v') = [(Nat.digitChar v).toUpper, (Nat.digitChar v').toUpper] := by
  have high : (16 * v + v') / 16 = v := by omega
  have low : (16 * v + v') % 16 = v' := by omega
  rw [hexByte, high, low]
  rfl

/-- The six digits that three or six digits stand for. -/
def sixDigits : List Char → List Char
  | [x, y, z] => [x, x, y, y, z, z]
  | digits => digits

/-- The number that hexadecimal digits write, the highest of them first. -/
def hexNumber? (digits : List Char) : Option Nat :=
  (digits.mapM hexDigit?).map (List.foldl (16 * · + ·) 0)

theorem hexChannels?_sixDigits (digits : List Char) :
    hexChannels? (sixDigits digits) = hexChannels? digits := by
  unfold sixDigits
  split
  · exact hexChannels?_doubled ..
  · rfl

theorem length_sixDigits (digits : List Char) : (sixDigits digits).length ≠ 3 := by
  unfold sixDigits
  split
  next => exact Nat.ne_of_gt (by decide : 3 < 6)
  next other =>
    intro three
    obtain ⟨x, y, z, is⟩ := List.length_eq_three.mp three
    exact other x y z is

/-- The digits of the channels are those that were read, in upper case, and write their number. -/
theorem sixDigits_of_hexChannels? {c : Channels} (reads : hexChannels? digits = some c) :
    (sixDigits digits).map Char.toUpper = hexByte c.red ++ hexByte c.green ++ hexByte c.blue ∧
      hexNumber? (sixDigits digits) = some c.packed := by
  rw [← hexChannels?_sixDigits] at reads
  obtain ⟨values, all, reads⟩ := Option.bind_eq_some_iff.mp reads
  have length := length_of_mapM all
  have lt := lt_of_mapM_hexDigit? all
  rw [map_toUpper_of_mapM all, hexNumber?, all]
  split at reads
  next => exact absurd length.symm (length_sixDigits digits)
  next r r' g g' b b' =>
    obtain rfl := Option.some.inj reads
    simp only [List.forall_mem_cons] at lt
    obtain ⟨-, red, -, green, -, blue, -⟩ := lt
    constructor
    · rw [hexByte_halves red, hexByte_halves green, hexByte_halves blue]
      rfl
    · rw [Channels.packed]
      simp only [Option.map_some, List.foldl_cons, List.foldl_nil, Option.some.injEq]
      omega
  next => cases reads

/-! ### Reading -/

/-- The two readers, each with its own form of texts. -/
theorem read?_cases {format : ColorFormat} {c : Channels} (reads : read? s = some (format, c)) :
    (∃ digits, s = '#' :: digits ∧ format = .hex ∧ hexChannels? digits = some c) ∨
      (s.head? ≠ some '#' ∧ format ≠ .hex ∧ numberChannels? s = some c) := by
  unfold read? at reads
  split at reads
  next digits =>
    obtain ⟨channels, found, same⟩ := Option.map_eq_some_iff.mp reads
    obtain ⟨rfl, rfl⟩ := Prod.mk.inj same
    exact .inl ⟨digits, rfl, rfl, found⟩
  next other =>
    have head : s.head? ≠ some '#' := by
      intro first
      obtain ⟨digits, rfl⟩ := List.head?_eq_some_iff.mp first
      exact other digits rfl
    split_ifs at reads <;>
      obtain ⟨channels, found, same⟩ := Option.map_eq_some_iff.mp reads <;>
      obtain ⟨rfl, rfl⟩ := Prod.mk.inj same
    · exact .inr ⟨head, by decide, found⟩
    · exact .inr ⟨head, by decide, found⟩

theorem bytes_of_read? {format : ColorFormat} {c : Channels}
    (reads : read? s = some (format, c)) : c.Bytes := by
  rcases read?_cases reads with ⟨digits, -, -, reads⟩ | ⟨-, -, reads⟩
  · exact bytes_of_hexChannels? reads
  · exact bytes_of_numberChannels? reads

theorem parse_eq_ok_iff :
    parse text = .ok c ↔
      read? (lower (trim text.toList)) = some (c.format, c.channels) ∧ c.written = text := by
  obtain ⟨format, written, channels⟩ := c
  rw [parse]
  cases read : read? (lower (trim text.toList)) with
  | none => simp
  | some found =>
    obtain ⟨format', channels'⟩ := found
    simp only [Except.ok.injEq, mk.injEq, Option.some.injEq, Prod.mk.injEq]
    tauto

theorem lower_signedDigits (x : ℤ) : lower (signedDigits x) = signedDigits x := by
  have same : ∀ c ∈ signedDigits x, c.toLower = c := by
    intro c mem
    rcases List.mem_append.mp mem with mem | mem
    · split_ifs at mem
      · rw [List.mem_singleton.mp mem]
        rfl
      · exact absurd mem List.not_mem_nil
    · have code := isDigit_iff.mp (@isDigit_of_mem_paddedDigits 0 x.natAbs c mem)
      rcases Text.toLower_cases c with ⟨capital, -⟩ | ⟨-, same⟩
      · omega
      · exact same
  exact (List.map_congr_left same).trans (List.map_id' _)

theorem read?_rgb (s : List Char) :
    read? ('r' :: 'g' :: 'b' :: '(' :: s) =
      (numberChannels? ('r' :: 'g' :: 'b' :: '(' :: s)).map (.rgb, ·) := rfl

/-- The functional form of whole numbers is read as these numbers without their signs, each of them
limited to a byte. -/
theorem parse_signedFunction (r g b : ℤ) :
    parse (signedFunction r g b) =
      .ok ⟨.rgb, signedFunction r g b, ⟨min 255 r.natAbs, min 255 g.natAbs, min 255 b.natAbs⟩⟩ := by
  have trimmed : trim (signedFunction r g b).toList = (signedFunction r g b).toList := by
    rw [toList_signedFunction]
    refine Text.trim_eq_self (fun x first => ?_) fun x last => ?_
    · exact Option.some.inj first ▸ by decide
    · simp only [List.getLast?_cons, List.getLast?_append, Option.some_or,
        Option.getD_some, Option.mem_some_iff] at last
      exact last ▸ by decide
  have folded : lower (signedFunction r g b).toList = (signedFunction r g b).toList := by
    have digits (x : ℤ) : (signedDigits x).map Char.toLower = signedDigits x := lower_signedDigits x
    rw [toList_signedFunction]
    simp only [lower, List.map_cons, List.map_append, List.map_nil, digits]
    rfl
  have reads := numberChannels?_signedFunction r g b
  rw [parse_eq_ok_iff, trimmed, folded]
  rw [toList_signedFunction] at reads ⊢
  rw [read?_rgb, reads]
  exact ⟨rfl, rfl⟩

/-- The functional form of channels is read as these channels, each of them limited to a byte. -/
theorem parse_function (c : Channels) :
    parse (function c) =
      .ok ⟨.rgb, function c, ⟨min 255 c.red, min 255 c.green, min 255 c.blue⟩⟩ := by
  rw [function_eq]
  exact parse_signedFunction c.red c.green c.blue

/-! ### Normal colors -/

/-- A text, blanks apart, is meant to be hexadecimal digits. -/
def IsHex (text : String) : Prop := (trim text.toList).head? = some '#'

theorem isHex_iff (reads : parse text = .ok c) : IsHex text ↔ c.format = .hex := by
  have folded : IsHex text ↔ (lower (trim text.toList)).head? = some '#' := by
    simp [IsHex, lower, List.head?_map, Text.toLower_eq_iff (show '#'.isAlpha = false from rfl)]
  rw [folded]
  rcases read?_cases (parse_eq_ok_iff.mp reads).1 with ⟨digits, is, hex, -⟩ | ⟨other, not, -⟩
  · simp [is, hex]
  · simp [other, not]

theorem canonical_hex (hex : c.format = .hex) :
    c.canonical = String.ofList
      ('#' :: (hexByte c.channels.red ++ hexByte c.channels.green ++ hexByte c.channels.blue)) := by
  obtain ⟨format, written, channels⟩ := c
  obtain rfl : format = .hex := hex
  rfl

/-- A color that was written in digits has the number that they write, and its canonical text is
these digits in upper case, three of them doubled. -/
theorem canonical_of_digits (reads : parse text = .ok c)
    (written : lower (trim text.toList) = '#' :: digits) :
    c.canonical = String.ofList ('#' :: (sixDigits digits).map Char.toUpper) ∧
      hexNumber? (sixDigits digits) = some c.packed := by
  rcases read?_cases (parse_eq_ok_iff.mp reads).1 with ⟨digits', is, hex, channels⟩ | ⟨other, -⟩
  · obtain rfl : digits = digits' := List.tail_eq_of_cons_eq (written.symm.trans is)
    obtain ⟨upper, number⟩ := sixDigits_of_hexChannels? channels
    exact ⟨by rw [canonical_hex hex, upper], number⟩
  · exact absurd (congrArg List.head? written) other

theorem canonical_function (other : c.format ≠ .hex) : c.canonical = function c.channels := by
  obtain ⟨format, written, channels⟩ := c
  cases format with
  | hex => exact absurd rfl other
  | rgb => rfl
  | rgba => rfl

/-- A text is read as a color with the canonical text and the number of `c`. -/
def Agrees (text : String) (c : Color) : Prop :=
  ∃ again, parse text = .ok again ∧ again.canonical = c.canonical ∧ again.packed = c.packed

theorem agrees_of_parse (reads : parse text = .ok d) (form : d.format = .hex ↔ c.format = .hex)
    (same : d.channels = c.channels) : Agrees text c := by
  refine ⟨d, reads, ?_, by rw [packed, packed, same]⟩
  by_cases hex : c.format = .hex
  · rw [canonical_hex hex, canonical_hex (form.mpr hex), same]
  · rw [canonical_function hex, canonical_function (mt form.mp hex), same]

/-- Digits behind the mark are read in lower case. -/
theorem read?_hex (digits : List Char) :
    read? (lower ('#' :: digits)) = (hexChannels? (lower digits)).map (.hex, ·) := rfl

/-- The canonical digits of a color are read as the color. -/
theorem parse_canonical_hex (bytes : c.channels.Bytes) (hex : c.format = .hex) :
    parse c.canonical = .ok ⟨.hex, c.canonical, c.channels⟩ := by
  have clean (n : Nat) : isBlank (Nat.digitChar (n % 16)).toUpper = false := by
    have digit : ∀ v < 16, isBlank (Nat.digitChar v).toUpper = false := by decide
    exact digit _ (Nat.mod_lt n (by omega))
  have trimmed : trim c.canonical.toList = c.canonical.toList := by
    rw [canonical_hex hex, String.toList_ofList]
    refine Text.trim_eq_self (fun x first => ?_) fun x last => ?_
    · exact Option.some.inj first ▸ by decide
    · simp only [hexByte, List.map_cons, List.map_nil, List.cons_append, List.nil_append,
        List.getLast?_cons_cons, List.getLast?_singleton, Option.mem_some_iff] at last
      exact last ▸ clean _
  rw [parse_eq_ok_iff, trimmed, canonical_hex hex, String.toList_ofList, read?_hex,
    hexChannels?_hexBytes bytes]
  exact ⟨rfl, rfl⟩

/-- Three digits are short for six. -/
theorem parse_doubled {x y z : Char} (short : trim text.toList = ['#', x, y, z])
    (reads : parse text = .ok c) :
    parse (String.ofList ['#', x, x, y, y, z, z]) =
      .ok ⟨c.format, String.ofList ['#', x, x, y, y, z, z], c.channels⟩ := by
  have trimmed : trim ['#', x, x, y, y, z, z] = ['#', x, x, y, y, z, z] := by
    refine Text.trim_eq_self (fun d first => ?_) fun d last => ?_
    · exact Option.some.inj first ▸ by decide
    · -- The last digit is that of a trimmed text.
      exact (Text.trim_trim text.toList).getLast? d (short ▸ last)
  have read := (parse_eq_ok_iff.mp reads).1
  rw [short, read?_hex] at read
  rw [parse_eq_ok_iff, String.toList_ofList, trimmed, read?_hex]
  exact ⟨(congrArg _ (hexChannels?_doubled ..)).trans read, rfl⟩

/-- What is said of a color that was read from a text: its canonical text is canonical, tells its
number, and so do the other texts that are read as a color of the same channels. -/
structure Normal (text : String) (c : Color) : Prop where
  packed_lt : c.packed < 2 ^ 24
  canonical : Agrees c.canonical c
  /-- Digits are written as the six digits of the number, -/
  hex : IsHex text → c.canonical = String.ofList ('#' :: upperHex 6 c.packed)
  /-- which are the digits that were read, in upper case and three of them doubled, -/
  digits : ∀ digits, lower (trim text.toList) = '#' :: digits →
    c.canonical = String.ofList ('#' :: (sixDigits digits).map Char.toUpper) ∧
      hexNumber? (sixDigits digits) = some c.packed
  /-- three of them being short for six, -/
  doubled : ∀ x y z, trim text.toList = ['#', x, y, z] →
    Agrees (String.ofList ['#', x, x, y, y, z, z]) c
  /-- and anything else as a function of the bytes of the number. -/
  functional : ¬IsHex text → ∃ channels : Channels, channels.Bytes ∧
    channels.packed = c.packed ∧ c.canonical = function channels
  /-- This function is read as a color with the same number, also in place of digits. -/
  function_packed : ∀ channels : Channels, channels.Bytes → channels.packed = c.packed →
    ∃ again, parse (function channels) = .ok again ∧ again.packed = c.packed
  /-- Letter case and outer blanks make no difference. -/
  respelled : ∀ other : String, lower (trim other.toList) = lower (trim text.toList) →
    Agrees other c

/-- Every color that is read is normal. -/
theorem normal_of_parse (reads : parse text = .ok c) : Normal text c := by
  obtain ⟨read, -⟩ := parse_eq_ok_iff.mp reads
  have bytes := bytes_of_read? read
  -- What is read is bytes, so the limit of the functional form takes nothing from it.
  have limited : (⟨min 255 c.channels.red, min 255 c.channels.green,
      min 255 c.channels.blue⟩ : Channels) = c.channels := by
    rw [min_eq_right bytes.red, min_eq_right bytes.green, min_eq_right bytes.blue]
  have function_reads := parse_function c.channels
  rw [limited] at function_reads
  refine
    { packed_lt := bytes.packed_lt
      canonical := ?_
      hex := fun hex => ?_
      digits := fun digits written => canonical_of_digits reads written
      doubled := fun x y z short => agrees_of_parse (parse_doubled short reads) Iff.rfl rfl
      functional := fun other => ?_
      function_packed := fun channels bytes' same => ?_
      respelled := fun other same => ?_ }
  · by_cases hex : c.format = .hex
    · exact agrees_of_parse (parse_canonical_hex bytes hex) (by simp [hex]) rfl
    · rw [canonical_function hex]
      exact agrees_of_parse function_reads (by simp [hex]) rfl
  · rw [packed, upperHex_packed bytes, canonical_hex ((isHex_iff reads).mp hex)]
  · exact ⟨c.channels, bytes, rfl, canonical_function (mt (isHex_iff reads).mpr other)⟩
  · obtain rfl := bytes'.eq_of_packed bytes same
    exact ⟨_, function_reads, rfl⟩
  · have read' : parse other = .ok ⟨c.format, other, c.channels⟩ :=
      parse_eq_ok_iff.mpr ⟨by rw [same, read], rfl⟩
    exact agrees_of_parse read' Iff.rfl rfl

theorem normal_of_parse_shortHex :
    parse " #F0a " = .ok ⟨.hex, " #F0a ", ⟨255, 0, 170⟩⟩ ∧
      Normal " #F0a " ⟨.hex, " #F0a ", ⟨255, 0, 170⟩⟩ := by
  have reads : parse " #F0a " = .ok ⟨.hex, " #F0a ", ⟨255, 0, 170⟩⟩ := rfl
  exact ⟨reads, normal_of_parse reads⟩

/-- A function is read loosely, and written in one form. -/
example : (parse "RGBA 300 20.9/30, .5").map canonical = .ok "rgb(255, 20, 30)" := by
  decide +kernel

end Color

end TriggerSheet
