import Mathlib.Data.Nat.Init
import TriggerSheet.Text.Ascii

/-!
# Pieces between separators

A text is split by cutting it at its first separator, and what is behind that one in the same way.

## Main results

* `Text.splitOn_of_notMem`, `Text.splitOn_cut` — the pieces of a text
* `Text.split_induction` — induction along the separators of a text
-/

namespace TriggerSheet.Text

variable {x : Char} {piece s : List Char}

/-- A text without separators is its only piece. -/
theorem splitOn_of_notMem (notMem : x ∉ s) : splitOn x s = [s] := by
  induction s with
  | nil => rfl
  | cons c s ih =>
    obtain ⟨other, notMem⟩ := not_or.mp (mt List.mem_cons.mpr notMem)
    rw [splitOn, if_neg (Ne.symm other), ih notMem]

/-- There is always a piece. -/
theorem splitOn_ne_nil (x : Char) (s : List Char) : splitOn x s ≠ [] := by
  cases s with
  | nil => exact List.cons_ne_nil [] []
  | cons c s =>
    rw [splitOn]
    split
    · exact List.cons_ne_nil _ _
    · split <;> exact List.cons_ne_nil _ _

/-- The first piece goes up to the first separator. -/
theorem splitOn_cut (notMem : x ∉ piece) (rest : List Char) :
    splitOn x (piece ++ x :: rest) = piece :: splitOn x rest := by
  induction piece with
  | nil => rw [List.nil_append, splitOn, if_pos rfl]
  | cons c piece ih =>
    obtain ⟨other, notMem⟩ := not_or.mp (mt List.mem_cons.mpr notMem)
    rw [List.cons_append, splitOn, if_neg (Ne.symm other), ih notMem]

/-- Induction along the separators of a text. -/
theorem split_induction {P : List Char → Prop} (x : Char) (whole : ∀ s, x ∉ s → P s)
    (cut : ∀ piece rest, x ∉ piece → P rest → P (piece ++ x :: rest)) (s : List Char) : P s := by
  induction length : s.length using Nat.strong_induction_on generalizing s with
  | _ n ih =>
    by_cases mem : x ∈ s
    · obtain ⟨piece, rest, rfl, notMem⟩ := List.eq_append_cons_of_mem mem
      refine cut piece rest notMem (ih rest.length ?_ rest rfl)
      rw [← length, List.length_append, List.length_cons]
      omega
    · exact whole s mem

end TriggerSheet.Text
