import TriggerSheet.Sheet.Group

/-!
# Nested braces

How far a body goes. A text with balanced braces belongs to a body as a whole; what follows the
brace that closes a body has no part in it; and a body that is never closed takes in whatever
closing braces are put behind it, up to the one that closes it.

## Main definitions

* `Text.BraceFree` — a text has no braces
* `Body.Passes` — reading passes over a text, however many braces are open
* `Text.Braces` — a text of closing braces

## Main results

* `Body.read_passes` — the body of a group goes up to the brace that closes it
* `Body.read_eq_append` — a body is the first part of the text
* `Body.read_append_of_closed`, `Body.read_append_braces` — what more text does to a body
-/

namespace TriggerSheet

namespace Text

/-- Braces delimit groups. -/
def isBrace (c : Char) : Bool := c == '{' || c == '}'

/-- A text has no braces. -/
def BraceFree (s : List Char) : Prop := ∀ c ∈ s, isBrace c = false

instance (s : List Char) : Decidable (BraceFree s) :=
  List.decidableBAll (isBrace · = false) s

theorem braceFree_cons {c : Char} {s : List Char} :
    BraceFree (c :: s) ↔ (c ≠ '{' ∧ c ≠ '}') ∧ BraceFree s := by
  simp [BraceFree, isBrace]

theorem braceFree_append {s t : List Char} :
    BraceFree (s ++ t) ↔ BraceFree s ∧ BraceFree t := List.forall_mem_append

theorem BraceFree.sublist {s t : List Char} (free : BraceFree t) (sub : s.Sublist t) :
    BraceFree s :=
  fun c mem => free c (sub.subset mem)

/-- A text of closing braces. -/
def Braces (s : List Char) : Prop := ∀ c ∈ s, c = '}'

theorem Braces.notMem {s : List Char} (braces : Braces s) : '{' ∉ s :=
  fun mem => absurd (braces _ mem) (by decide)

end Text

namespace Body

open Text (BraceFree braceFree_cons Braces)

variable {s t rest : List Char} {depth : Nat}

/-- Puts a text in front of a body. -/
def prepend (t : List Char) (b : Body) : Body := { b with text := t ++ b.text }

/-- Reading passes over a text, however many braces are open. -/
def Passes (t : List Char) : Prop :=
  ∀ depth rest, 0 < depth → read depth (t ++ rest) = (read depth rest).prepend t

theorem Passes.append (first : Passes s) (second : Passes t) : Passes (s ++ t) := by
  intro depth rest opened
  rw [List.append_assoc, first depth _ opened, second depth rest opened]
  simp [prepend]

theorem Passes.of_braceFree (free : BraceFree s) : Passes s := by
  intro depth rest opened
  induction s with
  | nil => rfl
  | cons c s ih =>
    obtain ⟨⟨opens, closes⟩, free⟩ := braceFree_cons.mp free
    rw [List.cons_append, read, if_neg opens, if_neg closes, ih free]
    rfl

/-- Braces around a text that is passed over are passed over with it. -/
theorem Passes.nest (inner : Passes t) : Passes ('{' :: t ++ ['}']) := by
  intro depth rest opened
  have still : depth + 1 - 1 ≠ 0 := by omega
  have deeper : 0 < depth + 1 := by omega
  simp only [List.cons_append, List.append_assoc, List.nil_append]
  rw [read, if_pos rfl, inner _ _ deeper, read, if_neg (by decide), if_pos rfl, if_neg still,
    Nat.add_sub_cancel]
  simp [prepend, push]

/-- The body of a group goes up to the brace that closes it. -/
theorem read_passes (inner : Passes t) (rest : List Char) :
    read 1 (t ++ '}' :: rest) = ⟨t, 0, rest⟩ := by
  rw [inner 1 _ Nat.one_pos, read, if_neg (by decide), if_pos rfl, if_pos rfl]
  simp [prepend]

/-! ### Where a body ends -/

/-- Reading a character in front of a body. -/
theorem read_cons (opened : 0 < depth) (c : Char) (rest : List Char) :
    read depth (c :: rest) = ⟨[], 0, rest⟩ ∧ c = '}' ∧ depth = 1 ∨
      ∃ deeper, 0 < deeper ∧ ∀ t, read depth (c :: t) = (read deeper t).push c := by
  by_cases opens : c = '{'
  · exact .inr ⟨depth + 1, Nat.succ_pos _, fun t => by rw [read, if_pos opens]⟩
  by_cases closes : c = '}'
  · by_cases last : depth - 1 = 0
    · exact .inl ⟨by rw [read, if_neg opens, if_pos closes, if_pos last], closes, by omega⟩
    · exact .inr ⟨depth - 1, by omega, fun t => by
        rw [read, if_neg opens, if_pos closes, if_neg last]⟩
  · exact .inr ⟨depth, opened, fun t => by rw [read, if_neg opens, if_neg closes]⟩

/-- A body is the first part of the text, and a brace may stand between it and the rest. -/
theorem read_eq_append (opened : 0 < depth) (s : List Char) :
    ∃ closing, s = (read depth s).text ++ closing ++ (read depth s).rest := by
  induction s generalizing depth with
  | nil => exact ⟨[], rfl⟩
  | cons c s ih =>
    rcases read_cons opened c s with ⟨closed, rfl, -⟩ | ⟨deeper, opened', passed⟩
    · exact ⟨['}'], by rw [closed]; rfl⟩
    · obtain ⟨closing, all⟩ := ih opened'
      refine ⟨closing, ?_⟩
      rw [passed]
      exact congrArg (c :: ·) all

/-- A body that is never closed goes on to the end of the text. -/
theorem read_of_unclosed (opened : 0 < depth) (unclosed : (read depth s).unclosed ≠ 0) :
    (read depth s).text = s ∧ (read depth s).rest = [] := by
  induction s generalizing depth with
  | nil => exact ⟨rfl, rfl⟩
  | cons c s ih =>
    rcases read_cons opened c s with ⟨closed, -, -⟩ | ⟨deeper, opened', passed⟩
    · rw [closed] at unclosed
      exact absurd rfl unclosed
    · rw [passed] at unclosed ⊢
      obtain ⟨text, rest⟩ := ih opened' unclosed
      exact ⟨congrArg (c :: ·) text, rest⟩

/-- What follows the brace that closes a body has no part in it. -/
theorem read_append_of_closed (opened : 0 < depth) (closed : (read depth s).unclosed = 0)
    (more : List Char) :
    read depth (s ++ more) = { read depth s with rest := (read depth s).rest ++ more } := by
  induction s generalizing depth with
  | nil => exact absurd closed (Nat.pos_iff_ne_zero.mp opened)
  | cons c s ih =>
    rcases read_cons opened c s with ⟨ends, rfl, rfl⟩ | ⟨deeper, opened', passed⟩
    · rw [ends, List.cons_append, read, if_neg (by decide), if_pos rfl, if_pos rfl]
    · rw [passed] at closed
      rw [List.cons_append, passed, passed, ih opened' closed]
      rfl

/-- Closing braces are read into a body, up to the one that closes it. -/
theorem read_braces {braces : List Char} (only : Braces braces) (opened : 0 < depth) :
    Braces (read depth braces).text ∧ Braces (read depth braces).rest := by
  obtain ⟨closing, all⟩ := read_eq_append opened braces
  refine ⟨fun c mem => only c ?_, fun c mem => only c ?_⟩ <;> rw [all] <;> simp [mem]

/-- A body that is never closed takes in closing braces that are put behind it. -/
theorem read_append_braces {braces : List Char} (only : Braces braces) (opened : 0 < depth)
    (unclosed : (read depth s).unclosed ≠ 0) :
    ∃ taken left, Braces taken ∧ Braces left ∧
      (read depth (s ++ braces)).text = s ++ taken ∧ (read depth (s ++ braces)).rest = left := by
  induction s generalizing depth with
  | nil =>
    obtain ⟨text, rest⟩ := read_braces only opened
    exact ⟨_, _, text, rest, rfl, rfl⟩
  | cons c s ih =>
    rcases read_cons opened c s with ⟨closed, -, -⟩ | ⟨deeper, opened', passed⟩
    · rw [closed] at unclosed
      exact absurd rfl unclosed
    · rw [passed] at unclosed
      obtain ⟨taken, left, only', only'', text, rest⟩ := ih opened' unclosed
      refine ⟨taken, left, only', only'', ?_, ?_⟩
      · rw [List.cons_append, passed]
        exact congrArg (c :: ·) text
      · rw [List.cons_append, passed]
        exact rest

end Body

end TriggerSheet
