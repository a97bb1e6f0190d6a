import TriggerSheet.Proofs.Numeral.Reading
import TriggerSheet.Proofs.Text.Fold
import TriggerSheet.Value.Duration

/-!
# What is read as a duration

A duration is laid out as a numeral and a unit or none, with blanks around them. A numeral may be
laid out in the digits of any script, but only the digits of the ASCII range have a value, so a text
is read in two stages: the first one takes it apart, knowing all digits and folding the case of the
unit, and the second one gives the numeral its value and tells seconds from milliseconds. The texts
that pass both stages have a grammar of their own.

## Main definitions

* `Text.foldCase` — the folding of a letter to its lower case
* `Duration.Unit.Spells` — a text spells a unit, letter case apart
* `Duration.Unit.selected` — the unit that a spelling selects
* `Duration.LaidOut` — a text is laid out as a numeral and a unit
* `Duration.Written` — a trimmed text is a numeral, blanks, and a unit or none

## Main results

* `Duration.parse_laidOut`, `Duration.parse_of_not_laidOut` — reading in two stages
* `Duration.parse_iff_written` — the grammar of durations
-/

namespace TriggerSheet

open Text (isBlank trim trimStart lower)

namespace Text

variable {c : Char}

/-- The simple case folding of a character, as far as it leads to a letter of the ASCII range: this
is where the capitals, the long s and the Kelvin sign are folded to. -/
def foldCase (c : Char) : Char :=
  if c = 'ſ' then 's' else if c = '\u212a' then 'k' else c.toLower

theorem foldCase_eq_m (folds : foldCase c = 'm') : c = 'm' ∨ c = 'M' := by
  unfold foldCase at folds
  split_ifs at folds
  · cases folds
  · cases folds
  · rcases toLower_eq folds with same | code
    · exact .inl same
    · exact .inr (Char.toNat_inj.mp (by simpa using code))

theorem foldCase_eq_s (folds : foldCase c = 's') : c = 's' ∨ c = 'S' ∨ c = 'ſ' := by
  unfold foldCase at folds
  split_ifs at folds with long
  · exact .inr (.inr long)
  · cases folds
  · rcases toLower_eq folds with same | code
    · exact .inl same
    · exact .inr (.inl (Char.toNat_inj.mp (by simpa using code)))

/-- A digit of any script is no blank. -/
theorem isBlank_of_isDecimalDigit (digit : isDecimalDigit c = true) : isBlank c = false := by
  have runs : ∀ start ∈ digitZeros, ∀ i < 10, isBlank (Char.ofNat (start + i)) = false := by
    decide +kernel
  obtain ⟨start, mem, run⟩ := List.any_eq_true.mp digit
  simp only [Bool.and_eq_true, decide_eq_true_eq] at run
  have clean := runs start mem (c.toNat - start) (by omega)
  rwa [Nat.add_sub_cancel' run.1, Char.ofNat_toNat] at clean

end Text

namespace Duration

/-! ### Units -/

namespace Unit

/-- The letters of a unit. -/
def letters : Unit → List Char
  | milliseconds => ['m', 's']
  | seconds => ['s']

/-- A text spells a unit, letter case apart. -/
def Spells (unit : Unit) (spelled : List Char) : Prop :=
  spelled.map Text.foldCase = unit.letters

/-- The unit that a spelling selects: seconds for an `s` of the ASCII range. -/
def selected (spelled : List Char) : Unit :=
  if lower spelled = ['s'] then seconds else milliseconds

/-- No unit, or a spelling of one. -/
def Optional (spelled : List Char) : Prop := spelled = [] ∨ ∃ unit : Unit, unit.Spells spelled

variable {spelled : List Char} {unit : Unit}

theorem Spells.milliseconds (spells : Unit.milliseconds.Spells spelled) :
    ∃ m s, spelled = [m, s] ∧ (m = 'm' ∨ m = 'M') ∧ (s = 's' ∨ s = 'S' ∨ s = 'ſ') := by
  obtain ⟨m, rest, rfl, folds, spells⟩ := List.map_eq_cons_iff.mp spells
  obtain ⟨s, rest, rfl, folds', spells⟩ := List.map_eq_cons_iff.mp spells
  obtain rfl := List.map_eq_nil_iff.mp spells
  exact ⟨m, s, rfl, Text.foldCase_eq_m folds, Text.foldCase_eq_s folds'⟩

theorem Spells.seconds (spells : Unit.seconds.Spells spelled) :
    ∃ s, spelled = [s] ∧ (s = 's' ∨ s = 'S' ∨ s = 'ſ') := by
  obtain ⟨s, rest, rfl, folds, spells⟩ := List.map_eq_cons_iff.mp spells
  obtain rfl := List.map_eq_nil_iff.mp spells
  exact ⟨s, rfl, Text.foldCase_eq_s folds⟩

/-- A spelling is read as the unit that it selects. -/
theorem ofText?_of_optional (optional : Optional spelled) :
    ofText? spelled = some (selected spelled) := by
  rcases optional with rfl | ⟨unit, spells⟩
  · rfl
  cases unit with
  | milliseconds =>
    obtain ⟨m, s, rfl, rfl | rfl, rfl | rfl | rfl⟩ := spells.milliseconds <;> rfl
  | seconds => obtain ⟨s, rfl, rfl | rfl | rfl⟩ := spells.seconds <;> rfl

theorem foldsToS_iff (c : Char) : foldsToS c = true ↔ c = 's' ∨ c = 'S' ∨ c = 'ſ' := by
  simp [foldsToS, isS, or_assoc]

theorem isM_iff (c : Char) : isM c = true ↔ c = 'm' ∨ c = 'M' := by simp [isM]

/-- Nothing else is read as a unit. -/
theorem optional_of_ofText? (reads : ofText? spelled = some unit) : Optional spelled := by
  unfold ofText? at reads
  split at reads
  · exact .inl rfl
  next s =>
    have letter : foldsToS s = true := by
      by_contra other
      have small : ¬isS s = true := fun is => other (by rw [foldsToS, is, Bool.true_or])
      rw [if_neg small, if_neg other] at reads
      cases reads
    rcases (foldsToS_iff s).mp letter with rfl | rfl | rfl <;> exact .inr ⟨.seconds, rfl⟩
  next m s =>
    have letters : (isM m && foldsToS s) = true := by
      by_contra other
      rw [if_neg other] at reads
      cases reads
    obtain ⟨letter, letter'⟩ := (Bool.and_eq_true _ _).mp letters
    rcases (isM_iff m).mp letter with rfl | rfl <;>
      rcases (foldsToS_iff s).mp letter' with rfl | rfl | rfl <;> exact .inr ⟨.milliseconds, rfl⟩
  · cases reads

/-- The characters of a unit are letters. -/
theorem Optional.mem (optional : Optional spelled) :
    ∀ c ∈ spelled, c = 'm' ∨ c = 'M' ∨ c = 's' ∨ c = 'S' ∨ c = 'ſ' := by
  intro c mem
  rcases optional with rfl | ⟨unit, spells⟩
  · exact absurd mem List.not_mem_nil
  cases unit with
  | milliseconds =>
    obtain ⟨m, s, rfl, em, es⟩ := spells.milliseconds
    simp only [List.mem_cons, List.not_mem_nil, or_false] at mem
    rcases mem with rfl | rfl
    · tauto
    · tauto
  | seconds =>
    obtain ⟨s, rfl, es⟩ := spells.seconds
    obtain rfl := List.mem_singleton.mp mem
    exact .inr (.inr es)

theorem Optional.isBlank (optional : Optional spelled) : ∀ c ∈ spelled, isBlank c = false := by
  intro c mem
  rcases optional.mem c mem with rfl | rfl | rfl | rfl | rfl <;> rfl

end Unit

/-! ### Layouts -/

/-- The characters of a numeral over the digits of all scripts. -/
def isNumeralChar (c : Char) : Bool := Text.isDecimalDigit c || c == '.'

/-- A text is laid out as a numeral over a class of digits and a unit or none, with blanks around
them. -/
structure LaidOut (digit : Char → Bool) (s n u : List Char) : Prop where
  numeral : Numeral digit n
  unit : Unit.Optional u
  blanks : ∃ before between after, s = before ++ (n ++ (between ++ u)) ++ after ∧
    (∀ c ∈ before, isBlank c = true) ∧ (∀ c ∈ between, isBlank c = true) ∧
    ∀ c ∈ after, isBlank c = true

/-- A trimmed text is a numeral over the digits of the ASCII range, then any blanks, and then a unit
or none. -/
def Written (t : List Char) : Prop :=
  ∃ n between u, t = n ++ (between ++ u) ∧ Numeral isDigit n ∧
    (∀ c ∈ between, isBlank c = true) ∧ Unit.Optional u

variable {digit : Char → Bool} {s n n' u u' between : List Char} {c : Char} {text : String}

theorem isBlank_of_isNumeralChar (is : isNumeralChar c = true) : isBlank c = false := by
  rcases (Bool.or_eq_true _ _).mp is with digit | point
  · exact Text.isBlank_of_isDecimalDigit digit
  · rw [beq_iff_eq.mp point]
    decide

theorem isNumeralChar_of_mem (numeral : Numeral Text.isDecimalDigit n) :
    ∀ c ∈ n, isNumeralChar c = true := by
  intro c mem
  rcases numeral.mem c mem with digit | rfl
  · exact (Bool.or_eq_true _ _).mpr (.inl digit)
  · rfl

/-- Neither blanks nor a unit can go on with a numeral. -/
theorem isNumeralChar_of_head? (blank : ∀ c ∈ between, isBlank c = true)
    (unit : Unit.Optional u) : ∀ c ∈ (between ++ u).head?, isNumeralChar c = false := by
  intro c first
  rcases List.mem_append.mp (List.mem_of_mem_head? first) with mem | mem
  · by_contra other
    have clean := isBlank_of_isNumeralChar ((Bool.not_eq_false _).mp other)
    rw [blank c mem] at clean
    cases clean
  · rcases unit.mem c mem with rfl | rfl | rfl | rfl | rfl <;> decide

theorem ends_of_head? (blank : ∀ c ∈ between, isBlank c = true) (unit : Unit.Optional u) :
    Decimal.Ends (between ++ u) := by
  intro c first
  have other := isNumeralChar_of_head? blank unit c first
  obtain ⟨digit, point⟩ := (Bool.or_eq_false_iff).mp other
  refine ⟨?_, beq_eq_false_iff_ne.mp point⟩
  by_contra ascii
  rw [isDecimalDigit_of_isDigit ((Bool.not_eq_false _).mp ascii)] at digit
  cases digit

theorem LaidOut.mono {digit digit' : Char → Bool} (more : ∀ c, digit c = true → digit' c = true)
    (laid : LaidOut digit s n u) : LaidOut digit' s n u :=
  ⟨laid.numeral.mono more, laid.unit, laid.blanks⟩

/-- Trimming leaves the numeral, and the unit if there is one. -/
theorem LaidOut.trim (laid : LaidOut Text.isDecimalDigit s n u) :
    ∃ between, trim s = n ++ (between ++ u) ∧ ∀ c ∈ between, isBlank c = true := by
  obtain ⟨before, between, after, rfl, blank, blank', blank''⟩ := laid.blanks
  have clean : ∀ c ∈ n, isBlank c = false := fun c mem =>
    isBlank_of_isNumeralChar (isNumeralChar_of_mem laid.numeral c mem)
  by_cases none : u = []
  · -- The blanks behind the numeral are trimmed off with the outer ones.
    refine ⟨[], ?_, fun c mem => absurd mem List.not_mem_nil⟩
    have all : ∀ c ∈ between ++ after, isBlank c = true := fun c mem =>
      (List.mem_append.mp mem).elim (blank' c) (blank'' c)
    have core := Text.trim_around blank all (fun c first => clean c (List.mem_of_mem_head? first))
      fun c last => clean c (List.mem_of_getLast? last)
    simpa [none] using core
  · refine ⟨between, Text.trim_around blank blank'' (fun c first => ?_) fun c last => ?_, blank'⟩
    · rw [List.head?_append_of_ne_nil _ laid.numeral.ne_nil] at first
      exact clean c (List.mem_of_mem_head? first)
    · rw [List.getLast?_append_of_ne_nil _ (List.append_ne_nil_of_right_ne_nil _ none),
        List.getLast?_append_of_ne_nil _ none] at last
      exact laid.unit.isBlank c (List.mem_of_getLast? last)

/-- A text is laid out as one numeral at most. -/
theorem LaidOut.unique (laid : LaidOut Text.isDecimalDigit s n u)
    (laid' : LaidOut Text.isDecimalDigit s n' u') : n = n' := by
  obtain ⟨between, core, blank⟩ := laid.trim
  obtain ⟨between', core', blank'⟩ := laid'.trim
  have front := Text.takeWhile_append_of_head? (isNumeralChar_of_mem laid.numeral)
    (isNumeralChar_of_head? blank laid.unit)
  have front' := Text.takeWhile_append_of_head? (isNumeralChar_of_mem laid'.numeral)
    (isNumeralChar_of_head? blank' laid'.unit)
  rw [← front, ← front', ← core, ← core']

/-- A text that is laid out in the digits of the ASCII range is read as its numeral in the unit
that is selected. -/
theorem read?_laidOut (laid : LaidOut isDigit s n u) :
    read? s = some (Decimal.ofNumeral n, Unit.selected u) := by
  obtain ⟨between, core, blank⟩ := (laid.mono fun _ => isDecimalDigit_of_isDigit).trim
  have unit : trimStart (between ++ u) = u := by
    rw [Text.trimStart_append_of_blank blank, Text.trimStart_of_head?]
    exact fun c first => laid.unit.isBlank c (List.mem_of_mem_head? first)
  simp [read?, core, Decimal.read?_numeral laid.numeral (ends_of_head? blank laid.unit), unit,
    Unit.ofText?_of_optional laid.unit]

/-- Trimmed texts of the grammar are laid out. -/
theorem laidOut_of_written (core : Text.trim s = n ++ (between ++ u)) (numeral : Numeral isDigit n)
    (blank : ∀ c ∈ between, isBlank c = true) (unit : Unit.Optional u) :
    LaidOut isDigit s n u := by
  obtain ⟨before, after, around, blank', blank''⟩ := Text.exists_trim_around s
  rw [core] at around
  exact ⟨numeral, unit, before, between, after, around, blank', blank, blank''⟩

/-- Nothing else is read. -/
theorem exists_laidOut_of_read? {d : Decimal} {unit : Unit} (reads : read? s = some (d, unit)) :
    ∃ n u, LaidOut isDigit s n u := by
  obtain ⟨⟨amount, rest⟩, read, reads⟩ := Option.bind_eq_some_iff.mp reads
  obtain ⟨unit, found, -⟩ := Option.bind_eq_some_iff.mp reads
  obtain ⟨n, core, numeral⟩ := Decimal.numeral_of_read? read
  have behind := List.takeWhile_append_dropWhile (p := isBlank) (l := rest)
  rw [← behind] at core
  exact ⟨n, _, laidOut_of_written core numeral (List.all_eq_true.mp List.all_takeWhile)
    (Unit.optional_of_ofText? found)⟩

/-! ### Reading -/

theorem parse_ok (laid : LaidOut isDigit text.toList n u) :
    parse text =
      .ok (ofMagnitude ((Unit.selected u).toMillis (Decimal.ofNumeral n).magnitude)) := by
  rw [parse, read?_laidOut laid]

theorem parse_error (none : ¬∃ n u, LaidOut isDigit text.toList n u) :
    parse text = .error (.invalidDuration text) := by
  rw [parse]
  split
  next amount unit reads => exact absurd (exists_laidOut_of_read? reads) none
  next => rfl

/-- A text that is laid out in the digits of any script is read by giving its numeral a value, and
is an error if the numeral has none. -/
theorem parse_laidOut (laid : LaidOut Text.isDecimalDigit text.toList n u) :
    parse text = match Scientific.ofText? n with
      | some x => .ok (ofMagnitude ((Unit.selected u).toMillis x.magnitude))
      | none => .error (.invalidDuration text) := by
  cases value : Scientific.ofText? n with
  | some x =>
    have numeral := Scientific.numeral_of_ofText? laid.numeral value
    have plain := Scientific.ofText?_numeral numeral
    rw [value] at plain
    rw [parse_ok ⟨numeral, laid.unit, laid.blanks⟩, ← Scientific.magnitude_plain,
      Option.some.inj plain]
  | none =>
    -- The text could only be laid out in the digits of the ASCII range as this numeral.
    refine parse_error ?_
    rintro ⟨n', u', ascii⟩
    have same := laid.unique (ascii.mono fun _ => isDecimalDigit_of_isDigit)
    rw [same, Scientific.ofText?_numeral ascii.numeral] at value
    cases value

/-- A text that is not laid out is an error. -/
theorem parse_of_not_laidOut (none : ¬∃ n u, LaidOut Text.isDecimalDigit text.toList n u) :
    parse text = .error (.invalidDuration text) :=
  parse_error fun ⟨n, u, laid⟩ => none ⟨n, u, laid.mono fun _ => isDecimalDigit_of_isDigit⟩

/-- The texts that are laid out are those that are written in the grammar once they are trimmed. -/
theorem exists_laidOut_iff : (∃ n u, LaidOut isDigit s n u) ↔ Written (trim s) := by
  constructor
  · rintro ⟨n, u, laid⟩
    obtain ⟨between, core, blank⟩ := (laid.mono fun _ => isDecimalDigit_of_isDigit).trim
    exact ⟨n, between, u, core, laid.numeral, blank, laid.unit⟩
  · rintro ⟨n, between, u, core, numeral, blank, unit⟩
    exact ⟨n, u, laidOut_of_written core numeral blank unit⟩

/-- A text that is laid out in the digits of the ASCII range has no other digits. -/
theorem isDigit_of_laidOut (laid : LaidOut isDigit s n u) (mem : c ∈ s)
    (digit : Text.isDecimalDigit c = true) : isDigit c = true := by
  obtain ⟨before, between, after, rfl, blank, blank', blank''⟩ := laid.blanks
  have clean := Text.isBlank_of_isDecimalDigit digit
  have not_blank {run : List Char} (blank : ∀ c ∈ run, isBlank c = true) : c ∉ run := by
    intro mem
    rw [blank c mem] at clean
    cases clean
  simp only [List.mem_append, not_blank blank, not_blank blank', not_blank blank'', false_or,
    or_false] at mem
  rcases mem with mem | mem
  · rcases laid.numeral.mem c mem with ascii | rfl
    · exact ascii
    · cases digit
  · rcases laid.unit.mem c mem with rfl | rfl | rfl | rfl | rfl <;> cases digit

/-- A text is read as a duration if and only if it is written in the grammar, outer blanks apart;
otherwise, as when it has digits of another range than ASCII, it is an error with the text as it is.
The lenient reader has the duration of the strict one on the same texts, and its default on all
others. -/
theorem parse_iff_written (text : String) :
    ((∃ d, parse text = .ok d) ↔ Written (trim text.toList)) ∧
      (¬Written (trim text.toList) → parse text = .error (.invalidDuration text)) ∧
      (∀ c ∈ text.toList, Text.isDecimalDigit c = true → isDigit c = false →
        parse text = .error (.invalidDuration text)) ∧
      ∀ default, (∀ d, parse text = .ok d → parseOr (some text) default = d) ∧
        (¬Written (trim text.toList) → parseOr (some text) default = default) := by
  have refused (none : ¬Written (trim text.toList)) :
      parse text = .error (.invalidDuration text) :=
    parse_error (mt exists_laidOut_iff.mp none)
  refine ⟨⟨fun ⟨d, accepted⟩ => ?_, fun written => ?_⟩, refused, fun c mem digit wide => ?_,
    fun default => ⟨fun d accepted => ?_, fun none => ?_⟩⟩
  · by_contra none
    rw [refused none] at accepted
    cases accepted
  · obtain ⟨n, u, laid⟩ := exists_laidOut_iff.mpr written
    exact ⟨_, parse_ok laid⟩
  · refine parse_error fun ⟨n, u, laid⟩ => ?_
    rw [isDigit_of_laidOut laid mem digit] at wide
    cases wide
  · rw [parseOr]
    simp only [accepted]
  · rw [parseOr]
    simp only [refused none]

theorem parse_wideDigit :
    Written (trim "\t.5 Mſ ".toList) ∧ ¬Written (trim "５s".toList) ∧
      (∃ d, parse "\t.5 Mſ " = .ok d) ∧ parseOr (some "５s") standard = standard := by
  have written : Written (trim "\t.5 Mſ ".toList) :=
    ⟨['.', '5'], [' '], ['M', 'ſ'], by decide,
      .fraction (by decide) (List.all_eq_true.mp rfl), List.all_eq_true.mp rfl,
      .inr ⟨.milliseconds, rfl⟩⟩
  have refused := (parse_iff_written "５s").2.2.1 '５' (by decide) (by decide +kernel)
    (by decide)
  have none : ¬Written (trim "５s".toList) := fun written => by
    obtain ⟨d, accepted⟩ := (parse_iff_written "５s").1.mpr written
    rw [refused] at accepted
    cases accepted
  exact ⟨written, none, (parse_iff_written "\t.5 Mſ ").1.mpr written,
    ((parse_iff_written "５s").2.2.2 standard).2 none⟩

end Duration

end TriggerSheet
