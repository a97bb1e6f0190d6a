import Mathlib.Data.List.DropRight
import TriggerSheet.Text.Ascii
import TriggerSheet.Text.Blank

/-!
# Trimmed texts

Trimming cuts a text down to what lies between its first and its last character that is not blank.
So it takes nothing from a trimmed text, and blank surroundings make no difference to it.

## Main definitions

* `Text.IsTrimmed` — trimming takes nothing away

## Main results

* `Text.trim_trim` — what is left by trimming is trimmed
* `Text.trim_surround` — blank surroundings make no difference
* `Text.exists_trim_around` — a text is what trimming leaves of it, between blanks
* `Text.trim_isInfix` — trimming keeps one stretch of a text
-/

namespace TriggerSheet.Text

variable {s before core after : List Char}

/-- Trimming takes nothing away. -/
def IsTrimmed (s : List Char) : Prop := trim s = s

instance (s : List Char) : Decidable (IsTrimmed s) := inferInstanceAs (Decidable (trim s = s))

/-- What is skipped between groups is trimmed off names and values too. -/
theorem isBlank_of_isSpace {c : Char} (space : isSpace c = true) : isBlank c = true := by
  simp only [isSpace, Bool.or_eq_true, beq_iff_eq] at space
  rcases space with (((rfl | rfl) | rfl) | rfl) | rfl <;> decide

/-! ### What is left -/

theorem suffix_trimStart (s : List Char) : trimStart s <:+ s := List.dropWhile_suffix _

theorem prefix_trimEnd (s : List Char) : trimEnd s <+: s := List.rdropWhile_prefix _ s

/-- A blank in front of blanks is trimmed off with them. -/
theorem trimEnd_cons (c : Char) (s : List Char) :
    trimEnd (c :: s) = if trimEnd s = [] ∧ isBlank c = true then [] else c :: trimEnd s := by
  rw [trimEnd, List.reverse_cons, List.dropWhile_append]
  cases left : s.reverse.dropWhile isBlank with
  | nil => cases blank : isBlank c <;> simp [trimEnd, left, blank]
  | cons a more => simp [trimEnd, left]

/-- Trimming keeps one stretch of a text. -/
theorem trim_isInfix (s : List Char) : trim s <:+: s :=
  (prefix_trimEnd _).isInfix.trans (suffix_trimStart s).isInfix

theorem head?_trimStart (s : List Char) : ∀ c ∈ (trimStart s).head?, isBlank c = false := by
  intro c first
  have not := List.head?_dropWhile_not isBlank s
  rw [trimStart] at first
  rw [first] at not
  simpa using not

theorem trimStart_of_head? (clean : ∀ c ∈ s.head?, isBlank c = false) : trimStart s = s := by
  cases s with
  | nil => rfl
  | cons c rest => simp [trimStart, clean c rfl]

/-- What is left begins as it did before its end was trimmed. -/
theorem trimStart_trim (s : List Char) : trimStart (trim s) = trim s := by
  refine trimStart_of_head? fun c first => head?_trimStart s c ?_
  obtain ⟨rest, all⟩ := prefix_trimEnd (trimStart s)
  have first : (trimEnd (trimStart s)).head? = some c := first
  rw [← all, List.head?_append, first]
  rfl

/-- What is left by trimming is trimmed. -/
theorem trim_trim (s : List Char) : IsTrimmed (trim s) := by
  rw [IsTrimmed, trim, trimStart_trim]
  exact List.rdropWhile_idempotent isBlank (trimStart s)

/-- A trimmed text does not begin with a blank. -/
theorem IsTrimmed.head? (trimmed : IsTrimmed s) : ∀ c ∈ s.head?, isBlank c = false := by
  have start : trimStart s = s := by
    have same := trimStart_trim s
    rwa [trimmed] at same
  exact start ▸ head?_trimStart s

/-- Nor does it end with one. -/
theorem IsTrimmed.getLast? (trimmed : IsTrimmed s) : ∀ c ∈ s.getLast?, isBlank c = false := by
  intro c last
  have some : trim s ≠ [] := by
    rw [trimmed]
    exact List.ne_nil_of_mem (List.mem_of_getLast? last)
  have clean := List.rdropWhile_last_not isBlank (trimStart s) some
  rw [← trimmed, List.getLast?_eq_getLast_of_ne_nil some] at last
  exact Bool.eq_false_iff.mpr (Option.some.inj last ▸ clean)

theorem trim_eq_self (first : ∀ c ∈ s.head?, isBlank c = false)
    (last : ∀ c ∈ s.getLast?, isBlank c = false) : IsTrimmed s := by
  rw [IsTrimmed, trim, trimStart_of_head? first, trimEnd]
  have back : trimStart s.reverse = s.reverse := trimStart_of_head? (by simpa using last)
  rw [trimStart] at back
  rw [back, List.reverse_reverse]

/-! ### Blank surroundings -/

theorem trimStart_append_of_blank (blank : ∀ c ∈ before, isBlank c = true) (s : List Char) :
    trimStart (before ++ s) = trimStart s :=
  List.dropWhile_append_of_pos blank

theorem trimEnd_append_of_blank (blank : ∀ c ∈ after, isBlank c = true) (s : List Char) :
    trimEnd (s ++ after) = trimEnd s := by
  have reversed : ∀ c ∈ after.reverse, isBlank c = true := by simpa using blank
  rw [trimEnd, List.reverse_append, List.dropWhile_append_of_pos reversed]
  rfl

/-- Blanks behind a text make no difference to what is left. -/
theorem trim_append_of_blank (blank : ∀ c ∈ after, isBlank c = true) (s : List Char) :
    trim (s ++ after) = trim s := by
  rw [trim, trimStart, List.dropWhile_append]
  split
  next none =>
    -- Nothing but blanks is there.
    have empty : trimStart s = [] := List.isEmpty_iff.mp none
    rw [trim, empty, List.dropWhile_eq_nil_iff.mpr blank]
  next => exact trimEnd_append_of_blank blank _

/-- Of blanks alone, nothing is left. -/
theorem trim_of_blank (blank : ∀ c ∈ s, isBlank c = true) : trim s = [] :=
  trim_append_of_blank blank []

/-- Blank surroundings make no difference to what is left. -/
theorem trim_surround (blank : ∀ c ∈ before, isBlank c = true)
    (blank' : ∀ c ∈ after, isBlank c = true) (s : List Char) :
    trim (before ++ s ++ after) = trim s := by
  rw [trim_append_of_blank blank', trim, trimStart_append_of_blank blank, trim]

/-- What stands between blanks and does not begin or end with one is what trimming leaves. -/
theorem trim_around (blank : ∀ c ∈ before, isBlank c = true)
    (blank' : ∀ c ∈ after, isBlank c = true) (first : ∀ c ∈ core.head?, isBlank c = false)
    (last : ∀ c ∈ core.getLast?, isBlank c = false) : trim (before ++ core ++ after) = core := by
  rw [trim_surround blank blank', trim_eq_self first last]

/-- A text is what trimming leaves of it, between blanks. -/
theorem exists_trim_around (s : List Char) :
    ∃ before after, s = before ++ trim s ++ after ∧ (∀ c ∈ before, isBlank c = true) ∧
      ∀ c ∈ after, isBlank c = true := by
  refine ⟨s.takeWhile isBlank, ((trimStart s).reverse.takeWhile isBlank).reverse, ?_, ?_, ?_⟩
  · rw [trim, trimEnd, List.append_assoc, ← List.reverse_append, List.takeWhile_append_dropWhile,
      List.reverse_reverse, trimStart, List.takeWhile_append_dropWhile]
  · exact List.all_eq_true.mp List.all_takeWhile
  · exact fun c mem => List.all_eq_true.mp List.all_takeWhile c (List.mem_reverse.mp mem)

end TriggerSheet.Text
