import Mathlib.Data.List.Basic
import TriggerSheet.Proofs.Text.Trim
import TriggerSheet.Text.TopLevel

/-!
# Pieces between top-level commas

A comma of a text is top-level when no parenthesis is open in front of it, counted from the start
of the whole text. Splitting never counts over a comma: every piece that has one behind it ends at
depth zero, so a piece has the depths that it would have on its own.

## Main definitions

* `Text.parenDepth` — the depth of parentheses behind a text
* `Text.topLevelCommas` — the places of the top-level commas of a text
* `Text.between` — the stretches of a text between some places
* `Text.Whole` — a text has no top-level comma
* `Text.Parted` — texts that stand between top-level commas

## Main results

* `Text.topLevelPieces_eq_between` — the pieces are what stands between the top-level commas
* `Text.parted_topLevelPieces` — the pieces have no top-level comma, and all but the last are closed
* `Text.topLevelPieces_intercalate` — such texts, written with commas between them, are found again
-/

namespace TriggerSheet.Text

/-- The depth of parentheses behind a text in front of which it was `d`. -/
def parenDepth (d : Nat) (s : List Char) : Nat := s.foldl depthAfter d

/-- The places of the commas of a text in front of which no parenthesis is open. -/
def topLevelCommas (s : List Char) : List Nat :=
  (List.range s.length).filter fun i => s[i]? = some ',' ∧ parenDepth 0 (s.take i) = 0

/-- The stretches of a text between some places, without the characters at these places. -/
def between (s : List Char) (places : List Nat) : List (List Char) :=
  List.zipWith (fun start stop => (s.take stop).drop start) (0 :: places.map (· + 1))
    (places ++ [s.length])

/-- A text that is read at depth `d` has no comma at depth zero. -/
def Whole : Nat → List Char → Prop
  | _, [] => True
  | d, c :: rest => ¬(c = ',' ∧ d = 0) ∧ Whole (depthAfter d c) rest

/-- Texts without a top-level comma, of which all but the last end at depth zero. -/
structure Parted (pieces : List (List Char)) : Prop where
  whole : ∀ p ∈ pieces, Whole 0 p
  closed : pieces.Pairwise fun p _ => parenDepth 0 p = 0

variable {s p rest taken : List Char} {d : Nat}

theorem parenDepth_append (d : Nat) (s t : List Char) :
    parenDepth d (s ++ t) = parenDepth (parenDepth d s) t := List.foldl_append

/-- No place of such a text holds a comma at depth zero. -/
theorem Whole.ne_zero (whole : Whole d s) {i : Nat} (comma : s[i]? = some ',') :
    parenDepth d (s.take i) ≠ 0 := by
  induction s generalizing d i with
  | nil => cases comma
  | cons c rest ih =>
    cases i with
    | zero => exact fun zero => whole.1 ⟨Option.some.inj comma, zero⟩
    | succ i => exact ih whole.2 comma

/-- A text has no comma at depth zero, or it has a first one. -/
theorem piece_cases (d : Nat) (s : List Char) :
    Whole d s ∨ ∃ p rest, s = p ++ ',' :: rest ∧ Whole d p ∧ parenDepth d p = 0 := by
  induction s generalizing d with
  | nil => exact .inl trivial
  | cons c s ih =>
    by_cases cut : c = ',' ∧ d = 0
    · exact .inr ⟨[], s, by rw [cut.1]; rfl, trivial, cut.2⟩
    · rcases ih (depthAfter d c) with whole | ⟨p, rest, rfl, whole, closed⟩
      · exact .inl ⟨cut, whole⟩
      · exact .inr ⟨c :: p, rest, rfl, ⟨cut, whole⟩, closed⟩

/-- A text is read piece by piece. -/
theorem piece_induction {P : List Char → Prop} (whole : ∀ s, Whole 0 s → P s)
    (cut : ∀ p rest, Whole 0 p → parenDepth 0 p = 0 → P rest → P (p ++ ',' :: rest))
    (s : List Char) : P s := by
  induction n : s.length using Nat.strong_induction_on generalizing s with
  | _ n ih =>
    rcases piece_cases 0 s with all | ⟨p, rest, rfl, all, closed⟩
    · exact whole s all
    · refine cut p rest all closed (ih rest.length ?_ rest rfl)
      rw [← n, List.length_append, List.length_cons]
      omega

/-! ### Splitting -/

/-- What a piece holds so far stands in front of its rest. -/
theorem topLevelPiecesFrom_taken (d : Nat) (taken s : List Char) :
    topLevelPiecesFrom d taken s = (topLevelPiecesFrom d [] s).modifyHead (taken.reverse ++ ·) := by
  induction s generalizing d taken with
  | nil => simp [topLevelPiecesFrom]
  | cons c s ih =>
    simp only [topLevelPiecesFrom]
    split
    · simp
    · rw [ih _ (c :: taken), ih _ [c]]
      simp [Function.comp_def]

theorem topLevelPiecesFrom_of_whole (whole : Whole d s) :
    topLevelPiecesFrom d taken s = [taken.reverse ++ s] := by
  induction s generalizing d taken with
  | nil => simp [topLevelPiecesFrom]
  | cons c s ih =>
    rw [topLevelPiecesFrom, if_neg whole.1, ih whole.2]
    simp

theorem topLevelPiecesFrom_cut (whole : Whole d p) (closed : parenDepth d p = 0)
    (rest : List Char) :
    topLevelPiecesFrom d taken (p ++ ',' :: rest) =
      (taken.reverse ++ p) :: topLevelPieces rest := by
  induction p generalizing d taken with
  | nil =>
    have zero : d = 0 := closed
    simp [topLevelPiecesFrom, topLevelPieces, zero]
  | cons c p ih =>
    rw [List.cons_append, topLevelPiecesFrom, if_neg whole.1, ih whole.2 closed]
    simp

/-- A text without a top-level comma is its only piece. -/
theorem topLevelPieces_of_whole (whole : Whole 0 s) : topLevelPieces s = [s] :=
  topLevelPiecesFrom_of_whole whole

/-- A closed piece ends at the comma behind it. -/
theorem topLevelPieces_cut (whole : Whole 0 p) (closed : parenDepth 0 p = 0) (rest : List Char) :
    topLevelPieces (p ++ ',' :: rest) = p :: topLevelPieces rest :=
  topLevelPiecesFrom_cut whole closed rest

/-- The pieces have no top-level comma, and all but the last are closed. -/
theorem parted_topLevelPieces (s : List Char) : Parted (topLevelPieces s) := by
  induction s using piece_induction with
  | whole s whole =>
    rw [topLevelPieces_of_whole whole]
    exact ⟨by simpa using whole, List.pairwise_singleton ..⟩
  | cut p rest whole closed ih =>
    rw [topLevelPieces_cut whole closed]
    exact ⟨List.forall_mem_cons.mpr ⟨whole, ih.whole⟩,
      List.pairwise_cons.mpr ⟨fun _ _ => closed, ih.closed⟩⟩

/-- Such texts, written with commas between them, are found again. -/
theorem topLevelPieces_intercalate {pieces : List (List Char)} (parted : Parted pieces)
    (some : pieces ≠ []) : topLevelPieces ([','].intercalate pieces) = pieces := by
  induction pieces with
  | nil => exact absurd rfl some
  | cons p rest ih =>
    have whole := parted.whole p (List.mem_cons_self ..)
    obtain ⟨closed, later⟩ := List.pairwise_cons.mp parted.closed
    cases rest with
    | nil => simpa using topLevelPieces_of_whole whole
    | cons q rest =>
      have again := ih ⟨fun r mem => parted.whole r (List.mem_cons_of_mem _ mem), later⟩
        (List.cons_ne_nil q rest)
      rw [List.intercalate_cons_cons, List.append_assoc, List.cons_append, List.nil_append,
        topLevelPieces_cut whole (closed q (List.mem_cons_self ..)), again]

/-! ### Places -/

theorem topLevelCommas_of_whole (whole : Whole 0 s) : topLevelCommas s = [] := by
  refine List.filter_eq_nil_iff.mpr fun i _ comma => ?_
  have comma := of_decide_eq_true comma
  exact whole.ne_zero comma.1 comma.2

/-- The first top-level comma stands behind the first piece, and the others are those of the rest:
at depth zero the count begins anew. -/
theorem topLevelCommas_cut (whole : Whole 0 p) (closed : parenDepth 0 p = 0) (rest : List Char) :
    topLevelCommas (p ++ ',' :: rest) =
      p.length :: (topLevelCommas rest).map (· + (p.length + 1)) := by
  have length : (p ++ ',' :: rest).length = p.length + 1 + rest.length := by
    simp only [List.length_append, List.length_cons]
    omega
  have early : (List.range p.length).filter (fun i => (p ++ ',' :: rest)[i]? = some ',' ∧
      parenDepth 0 ((p ++ ',' :: rest).take i) = 0) = [] := by
    refine List.filter_eq_nil_iff.mpr fun i mem comma => ?_
    have lt := List.mem_range.mp mem
    have comma := of_decide_eq_true comma
    rw [List.getElem?_append_left lt, List.take_append_of_le_length (Nat.le_of_lt lt)] at comma
    exact whole.ne_zero comma.1 comma.2
  have late (i : Nat) : ((p ++ ',' :: rest)[i + (p.length + 1)]? = some ',' ∧
      parenDepth 0 ((p ++ ',' :: rest).take (i + (p.length + 1))) = 0) ↔
      rest[i]? = some ',' ∧ parenDepth 0 (rest.take i) = 0 := by
    have place : i + (p.length + 1) = p.length + (i + 1) := by omega
    rw [place, List.getElem?_append_right (Nat.le_add_right _ _), Nat.add_sub_cancel_left,
      List.take_length_add_append, parenDepth_append, closed]
    rfl
  rw [topLevelCommas, length, List.range_add, List.range_succ, List.filter_append,
    List.filter_append, early]
  simp only [List.filter_map, Function.comp_def, Nat.add_comm (p.length + 1), late]
  simp [topLevelCommas, closed]

/-- The texts without a top-level comma are those that are read as a whole. -/
theorem topLevelCommas_eq_nil_iff : topLevelCommas s = [] ↔ Whole 0 s := by
  refine ⟨fun none => ?_, topLevelCommas_of_whole⟩
  rcases piece_cases 0 s with whole | ⟨p, rest, rfl, whole, closed⟩
  · exact whole
  · rw [topLevelCommas_cut whole closed] at none
    exact absurd none (List.cons_ne_nil _ _)

theorem between_cut (p rest : List Char) (places : List Nat) :
    between (p ++ ',' :: rest) (p.length :: places.map (· + (p.length + 1))) =
      p :: between rest places := by
  have length : (p ++ ',' :: rest).length = rest.length + (p.length + 1) := by
    simp only [List.length_append, List.length_cons]
    omega
  have start : (0 :: places.map (· + 1)).map (· + (p.length + 1)) =
      (p.length + 1) :: (places.map (· + (p.length + 1))).map (· + 1) := by
    simp only [List.map_cons, List.map_map, Nat.zero_add, Function.comp_def]
    refine congrArg _ (List.map_congr_left fun i _ => ?_)
    omega
  have stop : (places ++ [rest.length]).map (· + (p.length + 1)) =
      places.map (· + (p.length + 1)) ++ [(p ++ ',' :: rest).length] := by
    rw [length]
    simp
  -- What stands between two places behind the first comma stands between two places of the rest.
  have late (i j : Nat) : ((p ++ ',' :: rest).take (j + (p.length + 1))).drop (i + (p.length + 1)) =
      (rest.take j).drop i := by
    have cut (i : Nat) : i + (p.length + 1) = (p ++ [',']).length + i := by simp; omega
    rw [show p ++ ',' :: rest = (p ++ [',']) ++ rest by simp, cut, cut,
      List.take_length_add_append, List.drop_length_add_append]
  rw [between, List.map_cons, List.cons_append, List.zipWith_cons_cons, ← start, ← stop,
    List.zipWith_map]
  simp only [late]
  simp [between]

/-- The pieces of a text are the stretches between its top-level commas. -/
theorem topLevelPieces_eq_between (s : List Char) :
    topLevelPieces s = between s (topLevelCommas s) := by
  induction s using piece_induction with
  | whole s whole =>
    rw [topLevelPieces_of_whole whole, topLevelCommas_of_whole whole]
    simp [between]
  | cut p rest whole closed ih =>
    rw [topLevelPieces_cut whole closed, topLevelCommas_cut whole closed, between_cut, ih]

example : topLevelCommas "f(1, 2)), g, h(3, 4".toList = [8, 11] := by decide

/-! ### Marks -/

/-- The characters that splitting looks at. -/
def isMark (c : Char) : Bool := c = ',' || c = '(' || c = ')'

/-- The marks of a text, without what stands between them. -/
def marks (s : List Char) : List Char := s.filter isMark

theorem depthAfter_of_not_isMark {c : Char} (plain : isMark c = false) (d : Nat) :
    depthAfter d c = d := by
  have other : c ≠ '(' ∧ c ≠ ')' := by
    constructor <;> rintro rfl <;> cases plain
  rw [depthAfter, if_neg other.1, if_neg other.2]

theorem parenDepth_marks (d : Nat) (s : List Char) : parenDepth d (marks s) = parenDepth d s := by
  induction s generalizing d with
  | nil => rfl
  | cons c s ih =>
    cases mark : isMark c with
    | true => rw [marks, List.filter_cons_of_pos mark]; exact ih _
    | false =>
      rw [marks, List.filter_cons_of_neg (by simp [mark])]
      exact (ih d).trans (congrArg (parenDepth · s) (depthAfter_of_not_isMark mark d).symm)

theorem whole_marks (d : Nat) (s : List Char) : Whole d (marks s) ↔ Whole d s := by
  induction s generalizing d with
  | nil => rfl
  | cons c s ih =>
    cases mark : isMark c with
    | true =>
      rw [marks, List.filter_cons_of_pos mark]
      exact and_congr_right fun _ => ih _
    | false =>
      have comma : c ≠ ',' := by rintro rfl; cases mark
      rw [marks, List.filter_cons_of_neg (by simp [mark]), Whole,
        depthAfter_of_not_isMark mark, ← ih d]
      exact (and_iff_right fun cut => comma cut.1).symm

/-- Texts with the same marks are split alike. -/
theorem Whole.of_marks {t : List Char} (whole : Whole d s) (same : marks t = marks s) :
    Whole d t := by
  rwa [← whole_marks, same, whole_marks]

theorem parenDepth_of_marks {t : List Char} (d : Nat) (same : marks t = marks s) :
    parenDepth d t = parenDepth d s := by
  rw [← parenDepth_marks, same, parenDepth_marks]

theorem not_isMark_of_isBlank {c : Char} (blank : isBlank c = true) : isMark c = false := by
  by_contra mark
  simp only [Bool.not_eq_false, isMark, Bool.or_eq_true, decide_eq_true_eq] at mark
  rcases mark with (rfl | rfl) | rfl <;> cases blank

theorem marks_append (s t : List Char) : marks (s ++ t) = marks s ++ marks t :=
  List.filter_append ..

theorem marks_eq_nil (plain : ∀ c ∈ s, isMark c = false) : marks s = [] :=
  List.filter_eq_nil_iff.mpr fun c mem => by simp [plain c mem]

theorem marks_trimStart (s : List Char) : marks (trimStart s) = marks s := by
  have blank : ∀ c ∈ s.takeWhile isBlank, isMark c = false := fun c mem =>
    not_isMark_of_isBlank (List.all_eq_true.mp List.all_takeWhile c mem)
  conv_rhs => rw [← List.takeWhile_append_dropWhile (p := isBlank) (l := s), marks_append,
    marks_eq_nil blank]
  rfl

theorem marks_trimEnd (s : List Char) : marks (trimEnd s) = marks s := by
  have reversed (t : List Char) : marks t.reverse = (marks t).reverse := List.filter_reverse ..
  have start := marks_trimStart s.reverse
  rw [trimEnd, reversed]
  rw [trimStart, reversed] at start
  rw [start, List.reverse_reverse]

/-- Trimming takes no marks. -/
theorem marks_trim (s : List Char) : marks (trim s) = marks s := by
  rw [trim, marks_trimEnd, marks_trimStart]

end TriggerSheet.Text
