import TriggerSheet.Proofs.Value.Color

/-!
# Which texts are colors

Digits are read strictly: three or six of them stand behind the mark, and nothing else. A function
is read loosely: a text that begins with `rgb` is a color if the first three numbers in it are
written in the digits of the ASCII range, whatever stands between the numbers. So the parentheses
may be missing, and the minus sign of a number is passed over: a negative number is read without its
sign, where a limit to the bytes would make it zero.

## Main definitions

* `Color.Longest` — a number in front of a text that it cannot go on into
* `Color.Leads` — the first numbers of a text
* `Color.HexForm`, `Color.FunctionForm` — the forms in which colors should be written
* `Color.LooseForm` — the texts that are read as a function
* `Color.IsClamped` — a color has the bytes nearest to three whole numbers

## Main results

* `Color.exists_hexChannels?_iff` — three or six digits are read
* `Color.leads_iff` — the numbers that are found are the first numbers
* `Color.parse_accepts_iff` — which texts are colors, and when only those in one of the forms are
* `Color.parse_isClamped_iff` — a function of whole numbers has the nearest bytes unless one of them
  is negative
-/

namespace TriggerSheet.Color

open Text (isDecimalDigit trim lower)

variable {s n rest digits fraction : List Char} {numbers : List (List Char)} {text : String}

/-! ### Digits -/

/-- A hexadecimal digit of the ASCII range. -/
def IsHexDigit (c : Char) : Prop :=
  isDigit c = true ∨ ('a' ≤ c ∧ c ≤ 'f') ∨ ('A' ≤ c ∧ c ≤ 'F')

theorem exists_hexDigit?_iff (c : Char) : (∃ v, hexDigit? c = some v) ↔ IsHexDigit c := by
  simp only [hexDigit?, IsHexDigit, isDigit, Bool.and_eq_true, decide_eq_true_eq]
  split_ifs with decimal small capital
  · simp [decimal]
  · simp [small]
  · simp [capital]
  · simp [decimal, small, capital]

/-- Digits have values, and nothing else has. -/
theorem exists_mapM_iff : (∃ values, digits.mapM hexDigit? = some values) ↔
    ∀ c ∈ digits, IsHexDigit c := by
  induction digits with
  | nil => exact iff_of_true ⟨[], rfl⟩ fun c mem => absurd mem List.not_mem_nil
  | cons c digits ih =>
    rw [List.forall_mem_cons, ← ih, ← exists_hexDigit?_iff]
    constructor
    · rintro ⟨values, reads⟩
      obtain ⟨v, more, first, rest, -⟩ := mapM_cons_eq_some.mp reads
      exact ⟨⟨v, first⟩, more, rest⟩
    · rintro ⟨⟨v, first⟩, more, rest⟩
      exact ⟨v :: more, mapM_cons_eq_some.mpr ⟨v, more, first, rest, rfl⟩⟩

/-- Three or six digits are read, and nothing else. -/
theorem exists_hexChannels?_iff : (∃ c, hexChannels? digits = some c) ↔
    (digits.length = 3 ∨ digits.length = 6) ∧ ∀ c ∈ digits, IsHexDigit c := by
  rw [← exists_mapM_iff]
  constructor
  · rintro ⟨c, reads⟩
    obtain ⟨values, all, reads⟩ := Option.bind_eq_some_iff.mp reads
    refine ⟨?_, values, all⟩
    rw [← length_of_mapM all]
    split at reads
    next => exact .inl rfl
    next => exact .inr rfl
    next => cases reads
  · rintro ⟨count, values, all⟩
    rw [← length_of_mapM all] at count
    rw [hexChannels?, all]
    rcases count with three | six
    · obtain ⟨r, g, b, rfl⟩ := List.length_eq_three.mp three
      exact ⟨_, rfl⟩
    · have front : (values.take 3).length = 3 := by rw [List.length_take, six]; rfl
      have back : (values.drop 3).length = 3 := by rw [List.length_drop, six]
      obtain ⟨r, r', g, first⟩ := List.length_eq_three.mp front
      obtain ⟨g', b, b', last⟩ := List.length_eq_three.mp back
      rw [← List.take_append_drop 3 values, first, last]
      exact ⟨_, rfl⟩

/-! ### Numbers -/

/-- A number stands in front of a text, as a run of digits and, if a point with another run follows,
those too. -/
inductive Longest : List Char → List Char → Prop
  | whole {digits rest : List Char} (filled : digits ≠ [])
      (all : ∀ c ∈ digits, isDecimalDigit c = true)
      (ends : ∀ c ∈ rest.head?, isDecimalDigit c = false)
      (pointless : ∀ behind, rest = '.' :: behind →
        ∀ c ∈ behind.head?, isDecimalDigit c = false) :
      Longest digits rest
  | pointed {digits fraction rest : List Char} (filled : digits ≠ [])
      (all : ∀ c ∈ digits, isDecimalDigit c = true) (filled' : fraction ≠ [])
      (all' : ∀ c ∈ fraction, isDecimalDigit c = true)
      (ends : ∀ c ∈ rest.head?, isDecimalDigit c = false) :
      Longest (digits ++ '.' :: fraction) rest

/-- The first numbers of a text, with no digits in the gaps between them. -/
inductive Leads : List (List Char) → List Char → Prop
  | none (s : List Char) : Leads [] s
  | next {numbers : List (List Char)} {gap n rest : List Char}
      (plain : ∀ c ∈ gap, isDecimalDigit c = false)
      (longest : Longest n rest) (more : Leads numbers rest) :
      Leads (n :: numbers) (gap ++ (n ++ rest))

/-- A number begins with a digit. -/
theorem Longest.exists_head? (longest : Longest n rest) :
    ∃ c, n.head? = some c ∧ isDecimalDigit c = true := by
  cases longest with
  | whole filled all =>
    obtain ⟨c, more, rfl⟩ := List.exists_cons_of_ne_nil filled
    exact ⟨c, rfl, all c (List.mem_cons_self ..)⟩
  | pointed filled all =>
    obtain ⟨c, more, rfl⟩ := List.exists_cons_of_ne_nil filled
    exact ⟨c, rfl, all c (List.mem_cons_self ..)⟩

theorem Longest.numberLength (longest : Longest n rest) :
    numberLength (n ++ rest) = n.length := by
  cases longest with
  | whole filled all ends pointless =>
    rw [Color.numberLength, Text.takeWhile_append_of_head? all ends, List.drop_left]
    split
    next behind =>
      have none : ([] ++ behind).takeWhile isDecimalDigit = [] :=
        Text.takeWhile_append_of_head? (fun c mem => absurd mem List.not_mem_nil)
          (pointless behind rfl)
      rw [List.nil_append] at none
      rw [none]
      rfl
    next => rfl
  | @pointed digits fraction _ filled all filled' all' ends =>
    have point : ∀ c ∈ ('.' :: (fraction ++ rest)).head?, isDecimalDigit c = false :=
      fun c first => Option.some.inj first ▸ by decide
    have some : fraction.length ≠ 0 := fun none => filled' (List.length_eq_zero_iff.mp none)
    rw [List.append_assoc, List.cons_append, Color.numberLength,
      Text.takeWhile_append_of_head? all point, List.drop_left]
    simp only [Text.takeWhile_append_of_head? all' ends, if_neg some, List.length_append,
      List.length_cons]
    omega

/-- A number that cannot go on is found as it is. -/
theorem Longest.numbersFrom (longest : Longest n rest) :
    numbersFrom 0 (n ++ rest) = n :: numbersFrom 0 rest := by
  obtain ⟨c, begins, digit⟩ := longest.exists_head?
  exact numbersFrom_of_numberLength begins digit longest.numberLength

/-- A text that begins with a digit begins with a number. -/
theorem exists_longest {c : Char} (begins : s.head? = some c) (digit : isDecimalDigit c = true) :
    ∃ n rest, s = n ++ rest ∧ Longest n rest := by
  have all : ∀ c ∈ s.takeWhile isDecimalDigit, isDecimalDigit c = true :=
    List.all_eq_true.mp List.all_takeWhile
  have whole := List.takeWhile_append_dropWhile (p := isDecimalDigit) (l := s)
  have filled : s.takeWhile isDecimalDigit ≠ [] := by
    obtain ⟨more, rfl⟩ := List.head?_eq_some_iff.mp begins
    rw [List.takeWhile_cons_of_pos digit]
    exact List.cons_ne_nil _ _
  have ends (t : List Char) : ∀ c ∈ (t.dropWhile isDecimalDigit).head?, isDecimalDigit c = false :=
    fun c first => by
      have stops := List.head?_dropWhile_not isDecimalDigit t
      rw [Option.mem_def.mp first] at stops
      simpa using stops
  by_cases pointed : ∃ behind, s.dropWhile isDecimalDigit = '.' :: behind ∧
      behind.takeWhile isDecimalDigit ≠ []
  · obtain ⟨behind, point, filled'⟩ := pointed
    refine ⟨s.takeWhile isDecimalDigit ++ '.' :: behind.takeWhile isDecimalDigit,
      behind.dropWhile isDecimalDigit, ?_,
      .pointed filled all filled' (List.all_eq_true.mp List.all_takeWhile) (ends behind)⟩
    rw [List.append_assoc, List.cons_append, List.takeWhile_append_dropWhile, ← point, whole]
  · refine ⟨_, _, whole.symm, .whole filled all (ends s) fun behind point c first => ?_⟩
    by_contra other
    refine pointed ⟨behind, point, ?_⟩
    obtain ⟨more, rfl⟩ := List.head?_eq_some_iff.mp (Option.mem_def.mp first)
    rw [List.takeWhile_cons_of_pos ((Bool.not_eq_false _).mp other)]
    exact List.cons_ne_nil _ _

/-- What stands in front of the first digit is passed over. -/
theorem numbersFrom_gap {gap : List Char} (plain : ∀ c ∈ gap, isDecimalDigit c = false)
    (rest : List Char) : numbersFrom 0 (gap ++ rest) = numbersFrom 0 rest := by
  induction gap with
  | nil => rfl
  | cons c gap ih =>
    obtain ⟨first, others⟩ := List.forall_mem_cons.mp plain
    rw [List.cons_append, numbersFrom_cons_of_not first, ih others]

/-- The first numbers of a text are those that are found first. -/
theorem leads_iff : Leads numbers s ↔ numbers <+: numbersFrom 0 s := by
  constructor
  · intro leads
    induction leads with
    | none s => exact List.nil_prefix
    | next plain longest more ih =>
      rw [numbersFrom_gap plain, longest.numbersFrom]
      exact List.cons_prefix_cons.mpr ⟨rfl, ih⟩
  · intro found
    induction length : s.length using Nat.strong_induction_on generalizing s numbers with
    | _ k ih =>
      cases numbers with
      | nil => exact .none s
      | cons n numbers =>
        have plain : ∀ c ∈ s.takeWhile (fun c => !isDecimalDigit c), isDecimalDigit c = false :=
          fun c mem => by simpa using List.all_eq_true.mp List.all_takeWhile c mem
        have whole := List.takeWhile_append_dropWhile (p := fun c => !isDecimalDigit c) (l := s)
        generalize s.takeWhile (fun c => !isDecimalDigit c) = gap at plain whole
        cases behind : s.dropWhile (fun c => !isDecimalDigit c) with
        | nil =>
          rw [behind] at whole
          rw [← whole, numbersFrom_gap plain, numbersFrom] at found
          exact absurd (List.prefix_nil.mp found) (List.cons_ne_nil _ _)
        | cons c more =>
          have digit : isDecimalDigit c = true := by
            have stops := List.head?_dropWhile_not (fun c => !isDecimalDigit c) s
            rw [behind] at stops
            simpa using stops
          obtain ⟨n', rest, is, longest⟩ : ∃ n rest, c :: more = n ++ rest ∧ Longest n rest :=
            exists_longest rfl digit
          rw [behind, is] at whole
          rw [← whole, numbersFrom_gap plain, longest.numbersFrom] at found
          obtain ⟨rfl, others⟩ := List.cons_prefix_cons.mp found
          have shorter : rest.length < k := by
            obtain ⟨d, begins, -⟩ := longest.exists_head?
            obtain ⟨tail, rfl⟩ := List.head?_eq_some_iff.mp begins
            rw [← length, ← whole]
            simp only [List.length_append, List.length_cons]
            omega
          rw [← whole]
          exact .next plain longest (ih _ shorter others rfl)

/-- A number writes a channel if it is a numeral over the digits of the ASCII range. -/
theorem exists_channel?_iff : (∃ r, channel? n = some r) ↔ Numeral isDigit n := by
  constructor
  · rintro ⟨r, reads⟩
    rw [channel?] at reads
    split at reads
    next d read =>
      obtain ⟨plain, rfl, numeral⟩ := Decimal.numeral_of_read? read
      rwa [List.append_nil]
    next => cases reads
  · intro numeral
    have reads := Decimal.read?_numeral numeral Decimal.ends_nil
    rw [List.append_nil] at reads
    exact ⟨_, by rw [channel?, reads]⟩

/-- A text has three channels if its first three numbers write one each. -/
theorem exists_numberChannels?_iff : (∃ c, numberChannels? s = some c) ↔
    ∃ x y z, Leads [x, y, z] s ∧ ∀ n ∈ [x, y, z], Numeral isDigit n := by
  simp only [leads_iff, ← exists_channel?_iff]
  constructor
  · rintro ⟨c, reads⟩
    have three : (((numbersFrom 0 s).take 3).filterMap channel?).length = 3 := by
      rw [numberChannels?] at reads
      split at reads
      next all => rw [all]; rfl
      next => cases reads
    -- None of the first three numbers is left out, and there are as many.
    have most := List.length_take_le 3 (numbersFrom 0 s)
    have least := List.length_filterMap_le channel? ((numbersFrom 0 s).take 3)
    rw [three] at least
    obtain ⟨x, y, z, first⟩ := List.length_eq_three.mp (le_antisymm most least)
    rw [first] at three
    refine ⟨x, y, z, first ▸ List.take_prefix 3 _, fun n mem => ?_⟩
    exact Option.isSome_iff_exists.mp (List.filterMap_length_eq_length.mp three n mem)
  · rintro ⟨x, y, z, ⟨more, found⟩, channels⟩
    obtain ⟨⟨r, red⟩, ⟨g, green⟩, ⟨b, blue⟩, -⟩ :
        (∃ r, channel? x = some r) ∧ (∃ r, channel? y = some r) ∧ (∃ r, channel? z = some r) ∧
          ∀ n ∈ [], ∃ r, channel? n = some r := by
      simpa only [List.forall_mem_cons] using channels
    refine ⟨⟨r, g, b⟩, ?_⟩
    rw [numberChannels?, ← found]
    simp [red, green, blue]

/-! ### Forms -/

/-- The text that is read: without outer blanks, in lower case. -/
def folded (text : String) : List Char := lower (trim text.toList)

/-- The mark and three or six hexadecimal digits. -/
def HexForm (s : List Char) : Prop :=
  ∃ digits, s = '#' :: digits ∧ (digits.length = 3 ∨ digits.length = 6) ∧
    ∀ c ∈ digits, IsHexDigit c

/-- A function, up to its parentheses. -/
def FunctionForm (s : List Char) : Prop :=
  (['r', 'g', 'b', '('] <+: s ∨ ['r', 'g', 'b', 'a', '('] <+: s) ∧ [')'] <:+ s

/-- The name of a function, and three numbers in digits of the ASCII range before any others. -/
def LooseForm (s : List Char) : Prop :=
  ['r', 'g', 'b'] <+: s ∧ ∃ x y z, Leads [x, y, z] s ∧ ∀ n ∈ [x, y, z], Numeral isDigit n

theorem startsWith_iff {lead : List Char} : Text.startsWith lead s = true ↔ lead <+: s :=
  List.isPrefixOf_iff_prefix

/-- A text is read if it has the mark and digits, or is loosely a function. -/
theorem exists_read?_iff : (∃ found, read? s = some found) ↔ HexForm s ∨ LooseForm s := by
  have mapped {α β : Type} {o : Option α} (f : α → β) :
      (∃ b, o.map f = some b) ↔ ∃ a, o = some a := by
    cases o <;> simp
  unfold read?
  split
  next digits =>
    have other : ¬LooseForm ('#' :: digits) := fun loose => by simpa using loose.1
    have hex : HexForm ('#' :: digits) ↔
        (digits.length = 3 ∨ digits.length = 6) ∧ ∀ c ∈ digits, IsHexDigit c := by
      simp [HexForm]
    rw [mapped, exists_hexChannels?_iff, hex]
    simp [other]
  next other =>
    have digits : ¬HexForm s := by
      rintro ⟨digits, rfl, -⟩
      exact other digits rfl
    have loose : LooseForm s ↔ ['r', 'g', 'b'] <+: s ∧ ∃ c, numberChannels? s = some c := by
      rw [LooseForm, exists_numberChannels?_iff]
    have longer : ['r', 'g', 'b', 'a'] <+: s → ['r', 'g', 'b'] <+: s :=
      (List.prefix_append ['r', 'g', 'b'] ['a']).trans
    simp only [startsWith_iff, digits, false_or, loose]
    split_ifs with long short
    · simp [longer long]
    · simp [short]
    · simp [short]

/-- Colors are the texts with the mark and digits, and those that are loosely a function. -/
theorem exists_parse_iff :
    (∃ c, parse text = .ok c) ↔ HexForm (folded text) ∨ LooseForm (folded text) := by
  rw [← exists_read?_iff]
  constructor
  · rintro ⟨c, reads⟩
    exact ⟨_, (parse_eq_ok_iff.mp reads).1⟩
  · rintro ⟨⟨format, channels⟩, reads⟩
    exact ⟨⟨format, text, channels⟩, parse_eq_ok_iff.mpr ⟨reads, rfl⟩⟩

theorem parse_error (none : ¬∃ c, parse text = .ok c) :
    parse text = .error (.invalidColor text) := by
  rw [parse] at none ⊢
  split at none
  next format channels reads => exact absurd ⟨_, rfl⟩ none
  next reads => rfl

/-- A text with a number has a digit. -/
theorem Leads.exists_digit (leads : Leads (n :: numbers) s) :
    ∃ c ∈ s, isDecimalDigit c = true := by
  cases leads with
  | next plain longest more =>
    obtain ⟨c, begins, digit⟩ := longest.exists_head?
    refine ⟨c, ?_, digit⟩
    exact List.mem_append_right _ (List.mem_append_left _ (List.mem_of_mem_head? begins))

/-- Whatever is read as a color is written in one of the forms, and what is written in none is an
error with the text as it is. -/
def IsStrict (text : String) : Prop :=
  ((∃ c, parse text = .ok c) → HexForm (folded text) ∨ FunctionForm (folded text)) ∧
    (¬(HexForm (folded text) ∨ FunctionForm (folded text)) →
      parse text = .error (.invalidColor text))

theorem isStrict_iff : IsStrict text ↔ (LooseForm (folded text) → FunctionForm (folded text)) := by
  rw [IsStrict, exists_parse_iff]
  constructor
  · rintro ⟨accepted, -⟩ loose
    rcases accepted (.inr loose) with ⟨digits, is, -⟩ | function
    · rw [is] at loose
      exact absurd loose.1 (by simp)
    · exact function
  · intro strict
    have accepted : HexForm (folded text) ∨ LooseForm (folded text) →
        HexForm (folded text) ∨ FunctionForm (folded text) := Or.imp_right strict
    exact ⟨accepted, fun none => parse_error (mt (accepted ∘ exists_parse_iff.mp) none)⟩

/-- A text is a color if and only if it is the mark with three or six digits, or is loosely a
function, and otherwise it is an error with the text as it is; so is a name without digits. The
forms are the only texts that are accepted as far as what is loosely a function is written as
one. -/
theorem parse_accepts_iff (text : String) :
    ((∃ c, parse text = .ok c) ↔ HexForm (folded text) ∨ LooseForm (folded text)) ∧
      ((¬∃ c, parse text = .ok c) → parse text = .error (.invalidColor text)) ∧
      ((folded text).head? ≠ some '#' → (∀ c ∈ folded text, isDecimalDigit c = false) →
        parse text = .error (.invalidColor text)) ∧
      (IsStrict text ↔ (LooseForm (folded text) → FunctionForm (folded text))) := by
  refine ⟨exists_parse_iff, parse_error, fun unmarked name => parse_error ?_, isStrict_iff⟩
  rw [exists_parse_iff]
  rintro (⟨digits, is, -⟩ | ⟨-, x, y, z, leads, -⟩)
  · exact unmarked (by rw [is]; rfl)
  · obtain ⟨c, mem, digit⟩ := leads.exists_digit
    rw [name c mem] at digit
    cases digit

/-- A name is no color, also in capitals. -/
theorem parse_name : parse " Red" = .error (.invalidColor " Red") := by
  have letters : folded " Red" = ['r', 'e', 'd'] := by decide
  obtain ⟨-, -, name, -⟩ := parse_accepts_iff " Red"
  rw [letters] at name
  refine name (by decide) fun c mem => ?_
  simp only [List.mem_cons, List.not_mem_nil, or_false] at mem
  rcases mem with rfl | rfl | rfl <;> decide

/-- A function without its parentheses is a color, but in none of the forms. -/
theorem not_isStrict_bareFunction :
    parse "rgb 10 20 30" = .ok ⟨.rgb, "rgb 10 20 30", ⟨10, 20, 30⟩⟩ ∧
      ¬(HexForm (folded "rgb 10 20 30") ∨ FunctionForm (folded "rgb 10 20 30")) ∧
      ¬IsStrict "rgb 10 20 30" := by
  have reads : parse "rgb 10 20 30" = .ok ⟨.rgb, "rgb 10 20 30", ⟨10, 20, 30⟩⟩ := by
    decide +kernel
  have none : ¬(HexForm (folded "rgb 10 20 30") ∨ FunctionForm (folded "rgb 10 20 30")) := by
    rintro (⟨digits, is, -⟩ | ⟨-, closes⟩)
    · have marked : (folded "rgb 10 20 30").head? = some '#' := by
        rw [is]
        rfl
      exact absurd marked (by decide)
    · exact absurd closes (by decide)
  exact ⟨reads, none, fun strict => none (strict.1 ⟨_, reads⟩)⟩

/-! ### Functions of whole numbers -/

/-- The byte nearest to a whole number. -/
def clamp (x : ℤ) : ℤ := max 0 (min 255 x)

/-- A color has the number and the canonical text of the bytes nearest to three whole numbers. -/
def IsClamped (c : Color) (r g b : ℤ) : Prop :=
  (c.packed : ℤ) = clamp r * 65536 + clamp g * 256 + clamp b ∧
    c.canonical = signedFunction (clamp r) (clamp g) (clamp b)

theorem clamp_bounds (x : ℤ) : 0 ≤ clamp x ∧ clamp x ≤ 255 := by
  rw [clamp]
  omega

/-- Without its sign a number has the nearest byte unless it is negative. -/
theorem clamp_eq_iff (x : ℤ) : ((min 255 x.natAbs : ℕ) : ℤ) = clamp x ↔ 0 ≤ x := by
  rw [clamp]
  omega

/-- Every function of whole numbers is a color, with the bytes nearest to the numbers without their
signs; these are the bytes nearest to the numbers if and only if none of them is negative. -/
theorem parse_isClamped_iff (r g b : ℤ) :
    ∃ c, parse (signedFunction r g b) = .ok c ∧
      c.channels = ⟨min 255 r.natAbs, min 255 g.natAbs, min 255 b.natAbs⟩ ∧
      c.canonical = function c.channels ∧
      (IsClamped c r g b ↔ 0 ≤ r ∧ 0 ≤ g ∧ 0 ≤ b) := by
  refine ⟨_, parse_signedFunction r g b, rfl, rfl, ?_⟩
  rw [← clamp_eq_iff r, ← clamp_eq_iff g, ← clamp_eq_iff b]
  constructor
  · rintro ⟨number, -⟩
    have red := clamp_bounds r
    have green := clamp_bounds g
    have blue := clamp_bounds b
    simp only [packed, Channels.packed] at number
    -- The number of a color determines its bytes.
    generalize clamp r = r', clamp g = g', clamp b = b' at *
    have red' := min_le_left 255 r.natAbs
    have green' := min_le_left 255 g.natAbs
    have blue' := min_le_left 255 b.natAbs
    generalize min 255 r.natAbs = r'', min 255 g.natAbs = g'', min 255 b.natAbs = b'' at *
    omega
  · rintro ⟨red, green, blue⟩
    refine ⟨?_, ?_⟩
    · rw [← red, ← green, ← blue, packed, Channels.packed]
      push_cast
      rfl
    · rw [← red, ← green, ← blue, ← function_eq ⟨_, _, _⟩]
      rfl

/-- A negative number is read as its amount. -/
theorem not_isClamped_negativeRed :
    parse (signedFunction (-5) 0 0) = .ok ⟨.rgb, "rgb(-5, 0, 0)", ⟨5, 0, 0⟩⟩ ∧
      ¬∃ c, parse (signedFunction (-5) 0 0) = .ok c ∧ IsClamped c (-5) 0 0 := by
  have reads : parse (signedFunction (-5) 0 0) = .ok ⟨.rgb, "rgb(-5, 0, 0)", ⟨5, 0, 0⟩⟩ := by
    decide +kernel
  refine ⟨reads, ?_⟩
  rintro ⟨c, reads', number, -⟩
  rw [reads] at reads'
  obtain rfl := Except.ok.inj reads'
  exact absurd number (by decide)

end TriggerSheet.Color
