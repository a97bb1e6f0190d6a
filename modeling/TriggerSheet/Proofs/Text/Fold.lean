import TriggerSheet.Proofs.Text.Trim

/-!
# Texts in lower case

Folding the case of a text and trimming it go together in either order: a letter is no blank in
either case. Nothing but letters is touched, so marks stay where they are.

## Main results

* `Text.trim_lower` — folding commutes with trimming
* `Text.mem_lower_iff` — a character that is no letter stays where it is
* `Text.not_isUpper_of_mem_lower` — no capital is left
-/

namespace TriggerSheet.Text

variable {s t : List Char} {c : Char}

/-- A capital is folded to the letter 32 places behind it, and nothing else is folded. -/
theorem toLower_cases (c : Char) :
    (65 ≤ c.toNat ∧ c.toNat ≤ 90) ∧ c.toLower.toNat = c.toNat + 32 ∨
      ¬(65 ≤ c.toNat ∧ c.toNat ≤ 90) ∧ c.toLower = c := by
  unfold Char.toLower
  split
  next capital =>
    refine .inl ⟨capital, ?_⟩
    have small : c.toNat ≤ 90 := capital.2
    have place : (c.val + 32).toNat = (c.toNat + 32) % 2 ^ 32 := UInt32.toNat_add ..
    rw [Nat.mod_eq_of_lt (by omega)] at place
    exact place
  next other => exact .inr ⟨other, rfl⟩

/-- A letter is no blank in either case. -/
theorem isBlank_toLower (c : Char) : isBlank c.toLower = isBlank c := by
  rcases toLower_cases c with ⟨capital, folded⟩ | ⟨-, same⟩
  · have plain : isBlank c = false := by
      simp [isBlank]
      omega
    have plain' : isBlank c.toLower = false := by
      simp [isBlank, folded]
      omega
    rw [plain, plain']
  · rw [same]

theorem lower_append (s t : List Char) : lower (s ++ t) = lower s ++ lower t := List.map_append

theorem trimStart_lower (s : List Char) : trimStart (lower s) = lower (trimStart s) := by
  have same : isBlank ∘ Char.toLower = isBlank := funext isBlank_toLower
  rw [trimStart, lower, List.dropWhile_map, same]
  rfl

/-- Folding commutes with trimming. -/
theorem trim_lower (s : List Char) : trim (lower s) = lower (trim s) := by
  have reversed (s : List Char) : (lower s).reverse = lower s.reverse := List.map_reverse.symm
  have behind := trimStart_lower (trimStart s).reverse
  rw [trimStart] at behind
  rw [trim, trimEnd, trimStart_lower, reversed, behind, reversed]
  rfl

/-- The letters that have one lower case are that and its capital. -/
theorem toLower_eq {d : Char} (folds : c.toLower = d) : c = d ∨ c.toNat + 32 = d.toNat := by
  rcases toLower_cases c with ⟨-, folded⟩ | ⟨-, same⟩
  · exact .inr (folds ▸ folded.symm)
  · exact .inl (same.symm.trans folds)

/-- A character that is no letter stays where it is. -/
theorem toLower_eq_iff (other : c.isAlpha = false) (d : Char) : d.toLower = c ↔ d = c := by
  obtain ⟨upper, letter⟩ := Bool.or_eq_false_iff.mp other
  have plain : ¬(65 ≤ c.toNat ∧ c.toNat ≤ 90) := of_decide_eq_false upper
  constructor
  · intro folds
    rcases toLower_cases d with ⟨capital, folded⟩ | ⟨-, same⟩
    · rw [folds] at folded
      have small : c.isLower = true := by
        refine Bool.and_eq_true_iff.mpr ⟨decide_eq_true ?_, decide_eq_true ?_⟩
        · exact (by omega : 97 ≤ c.toNat)
        · exact (by omega : c.toNat ≤ 122)
      cases letter.symm.trans small
    · exact same.symm.trans folds
  · rintro rfl
    exact (toLower_cases d).elim (fun is => absurd is.1 plain) And.right

theorem mem_lower_iff (other : c.isAlpha = false) : c ∈ lower s ↔ c ∈ s := by
  simp [lower, toLower_eq_iff other]

/-- No capital is left. -/
theorem not_isUpper_of_mem_lower (mem : c ∈ lower s) : c.isUpper = false := by
  obtain ⟨d, -, rfl⟩ := List.mem_map.mp mem
  refine decide_eq_false fun capital => ?_
  have code : 65 ≤ d.toLower.toNat ∧ d.toLower.toNat ≤ 90 := capital
  rcases toLower_cases d with ⟨_, folded⟩ | ⟨plain, same⟩
  · omega
  · exact plain (same ▸ code)

end TriggerSheet.Text
