import TriggerSheet.Proofs.Sheet.Reading
import TriggerSheet.Sheet.Comment

/-!
# Taking comments out

What comments come to. Text between comments stays as it is, and a comment leaves no more than the
end of its line, whatever follows. A text that changes when its comments are taken out has fewer
slashes then.

## Main definitions

* `Comment.Gap` — space and comments, one after another
* `Comment.StripsTo` — what a text comes to in front of any other

## Main results

* `Comment.StripsTo.append`, `Comment.stripsTo_of_notMem`, `Comment.Gap.stripsTo` — the parts of a
  text with comments
* `Comment.strip_eq_or_count_lt` — comments that go take slashes along
-/

namespace TriggerSheet

/-! ### Two characters side by side -/

namespace Text

variable {a b c : Char} {s t : List Char}

theorem pair_infix_cons :
    [a, b] <:+: c :: s ↔ (c = a ∧ s.head? = some b) ∨ [a, b] <:+: s := by
  have next : [b] <+: s ↔ s.head? = some b := by
    cases s with
    | nil => simp
    | cons d s => simp [List.cons_prefix_cons, @eq_comm _ b d]
  rw [List.infix_cons_iff, List.cons_prefix_cons, next, @eq_comm _ a c]

/-- Another character keeps two characters apart. -/
theorem pair_infix_append_cons (other : c ≠ a) (other' : c ≠ b) :
    [a, b] <:+: s ++ c :: t ↔ [a, b] <:+: s ∨ [a, b] <:+: t := by
  induction s with
  | nil => simp [pair_infix_cons, other]
  | cons d s ih =>
    have first : (s ++ c :: t).head? = some b ↔ s.head? = some b := by
      cases s <;> simp [other']
    rw [List.cons_append, pair_infix_cons, pair_infix_cons, first, ih, or_assoc]

theorem not_pair_of_notMem (notMem : a ∉ s) : ¬ [a, b] <:+: s :=
  fun pair => notMem (pair.subset (List.mem_cons_self ..))

/-- Two characters that are nowhere side by side, not even where a text meets what follows, are not
so at its first character, nor in the rest. -/
theorem not_pair_cons (apart : ¬ [a, b] <:+: c :: s)
    (ends : (c :: s).getLast? = some a → t.head? ≠ some b) :
    (c = a → (s ++ t).head? ≠ some b) ∧ ¬ [a, b] <:+: s ∧
      (s.getLast? = some a → t.head? ≠ some b) := by
  obtain ⟨here, apart⟩ := not_or.mp (mt pair_infix_cons.mpr apart)
  cases s with
  | nil => exact ⟨fun is => ends (congrArg some is), apart, fun last => by simp at last⟩
  | cons d s =>
    rw [List.getLast?_cons_cons] at ends
    exact ⟨fun is next => here ⟨is, next⟩, apart, ends⟩

end Text

open Text (Spaces pair_infix_cons pair_infix_append_cons not_pair_of_notMem not_pair_cons)

namespace Comment

variable {s s' t t' body rest : List Char}

/-! ### Spans -/

theorem afterSpan?_eq_none {c : Char} (opens : c = '/' → s.head? ≠ some '*') :
    afterSpan? (c :: s) = none := by
  unfold afterSpan?
  split
  next eq =>
    cases eq
    exact absurd rfl (opens rfl)
  next => rfl

/-- A span goes up to the `*/` behind a body that holds none. -/
theorem afterClose?_append (closes : ¬ ['*', '/'] <:+: body) (rest : List Char) :
    afterClose? (body ++ '*' :: '/' :: rest) = some rest := by
  induction body with
  | nil => simp [afterClose?]
  | cons c body ih =>
    obtain ⟨apart, closes⟩ := not_or.mp (mt pair_infix_cons.mpr closes)
    have first : (body ++ '*' :: '/' :: rest).head? = some '/' → body.head? = some '/' := by
      cases body <;> simp
    rw [List.cons_append, afterClose?, if_neg (fun both => apart ⟨both.1, first both.2⟩), ih closes]

theorem dropSpans_span (closes : ¬ ['*', '/'] <:+: body) (rest : List Char) :
    dropSpans ('/' :: '*' :: (body ++ '*' :: '/' :: rest)) = dropSpans rest :=
  dropSpans_of_afterSpan? (afterClose?_append closes rest)

/-- A text that opens no span, not even with what follows, keeps all its characters. -/
theorem dropSpans_append (opens : ¬ ['/', '*'] <:+: s)
    (apart : s.getLast? = some '/' → rest.head? ≠ some '*') :
    dropSpans (s ++ rest) = s ++ dropSpans rest := by
  induction s with
  | nil => rfl
  | cons c s ih =>
    obtain ⟨here, opens, apart⟩ := not_pair_cons opens apart
    rw [List.cons_append, dropSpans_cons (afterSpan?_eq_none here), ih opens apart,
      List.cons_append]

theorem afterClose?_suffix (closed : afterClose? s = some rest) : rest <:+ s := by
  induction s with
  | nil => simp [afterClose?] at closed
  | cons c s ih =>
    rw [afterClose?] at closed
    split at closed
    · obtain rfl := Option.some.inj closed
      exact (List.tail_suffix s).trans (List.suffix_cons c s)
    · exact (ih closed).trans (List.suffix_cons c s)

theorem count_afterSpan?_lt (span : afterSpan? s = some rest) :
    rest.count '/' < s.count '/' := by
  unfold afterSpan? at span
  split at span
  next inside =>
    have less := (afterClose?_suffix span).sublist.count_le '/'
    simp only [List.count_cons_self, List.count_cons_of_ne (show '*' ≠ '/' by decide)]
    omega
  next => simp at span

/-- A span that goes takes slashes along. -/
theorem dropSpans_eq_or_count_lt (s : List Char) :
    dropSpans s = s ∨ (dropSpans s).count '/' < s.count '/' := by
  induction s using dropSpans.induct with
  | case1 s rest span ih =>
    have less := count_afterSpan?_lt span
    rw [dropSpans_of_afterSpan? span]
    refine .inr ?_
    rcases ih with same | less'
    · rwa [same]
    · exact less'.trans less
  | case2 => exact .inl dropSpans_nil
  | case3 c rest span ih =>
    rw [dropSpans_cons span]
    refine ih.imp (congrArg (c :: ·)) fun less => ?_
    rw [List.count_cons, List.count_cons]
    omega

/-! ### Ends of lines -/

theorem cutLinesFrom_cons {c : Char} (slashes : c = '/' → s.head? ≠ some '/') :
    cutLinesFrom false (c :: s) = c :: cutLinesFrom false s := by
  rw [cutLinesFrom]
  split
  · rfl
  · rw [if_neg]
    rintro (skipping | ⟨slash, next⟩)
    · simp at skipping
    · exact slashes slash next

/-- A text without `//`, not even with what follows, keeps all its characters. -/
theorem cutLinesFrom_append (slashes : ¬ ['/', '/'] <:+: s)
    (apart : s.getLast? = some '/' → rest.head? ≠ some '/') :
    cutLinesFrom false (s ++ rest) = s ++ cutLinesFrom false rest := by
  induction s with
  | nil => rfl
  | cons c s ih =>
    obtain ⟨here, slashes, apart⟩ := not_pair_cons slashes apart
    rw [List.cons_append, cutLinesFrom_cons here, ih slashes apart, List.cons_append]

/-- What is skipped goes up to the end of the line. -/
theorem cutLinesFrom_skipping (one : '\n' ∉ s) (rest : List Char) :
    cutLinesFrom true (s ++ '\n' :: rest) = '\n' :: cutLinesFrom false rest := by
  induction s with
  | nil => rfl
  | cons c s ih =>
    obtain ⟨other, one⟩ := not_or.mp (mt List.mem_cons.mpr one)
    rw [List.cons_append, cutLinesFrom, if_neg (Ne.symm other), if_pos (.inl rfl), ih one]

theorem cutLinesFrom_line (one : '\n' ∉ s) (rest : List Char) :
    cutLinesFrom false ('/' :: '/' :: (s ++ '\n' :: rest)) = '\n' :: cutLinesFrom false rest := by
  have one : '\n' ∉ '/' :: s := by simp [one]
  rw [cutLinesFrom, if_neg (by decide), if_pos (.inr ⟨rfl, rfl⟩), ← List.cons_append,
    cutLinesFrom_skipping one]

theorem cutLinesFrom_sublist (skipping : Bool) (s : List Char) :
    (cutLinesFrom skipping s).Sublist s := by
  induction s generalizing skipping with
  | nil => exact .slnil
  | cons c s ih =>
    rw [cutLinesFrom]
    split
    · exact (ih false).cons_cons c
    · split
      · exact (ih true).cons c
      · exact (ih false).cons_cons c

/-- What is cut off has slashes in it. -/
theorem cutLines_eq_or_count_lt (s : List Char) :
    cutLines s = s ∨ (cutLines s).count '/' < s.count '/' := by
  induction s with
  | nil => exact .inl rfl
  | cons c s ih =>
    by_cases slashes : c = '/' ∧ s.head? = some '/'
    · obtain ⟨rfl, next⟩ := slashes
      have less := (cutLinesFrom_sublist true s).count_le '/'
      rw [cutLines, cutLinesFrom, if_neg (by decide), if_pos (.inr ⟨rfl, next⟩),
        List.count_cons_self]
      exact .inr (Nat.lt_succ_of_le less)
    · rw [cutLines, cutLinesFrom_cons fun slash next => slashes ⟨slash, next⟩]
      refine ih.imp (congrArg (c :: ·)) fun less => ?_
      rw [← cutLines, List.count_cons, List.count_cons]
      omega

/-- Comments that go take slashes along. -/
theorem strip_eq_or_count_lt (s : List Char) :
    strip s = s ∨ (strip s).count '/' < s.count '/' := by
  rcases dropSpans_eq_or_count_lt s with same | less
  · rw [strip, same]
    exact cutLines_eq_or_count_lt s
  · exact .inr (Nat.lt_of_le_of_lt ((cutLinesFrom_sublist false _).count_le '/') less)

/-! ### Text and comments -/

/-- What a text comes to in front of any other. -/
def StripsTo (s t : List Char) : Prop := ∀ rest, strip (s ++ rest) = t ++ strip rest

theorem StripsTo.append (first : StripsTo s t) (second : StripsTo s' t') :
    StripsTo (s ++ s') (t ++ t') := by
  intro rest
  rw [List.append_assoc, first, second, List.append_assoc]

theorem StripsTo.strip_eq (strips : StripsTo s t) : strip s = t := by
  have none : strip [] = [] := by
    rw [strip, dropSpans_nil]
    rfl
  have all := strips []
  rwa [List.append_nil, none, List.append_nil] at all

/-- Text without slashes stays. -/
theorem stripsTo_of_notMem (notMem : '/' ∉ s) : StripsTo s s := by
  intro rest
  have last : s.getLast? ≠ some '/' := fun last => notMem (List.mem_of_getLast? last)
  rw [strip, dropSpans_append (not_pair_of_notMem notMem) fun slash => absurd slash last]
  exact cutLinesFrom_append (not_pair_of_notMem notMem) fun slash => absurd slash last

/-- Space and comments, one after another. A span holds no `*/` before its end. A comment that ends
with its line holds no `/*`, because spans are taken out first. -/
inductive Gap : List Char → Prop
  | nil : Gap []
  | space {c : Char} {rest : List Char} (space : Text.isSpace c = true) (gap : Gap rest) :
      Gap (c :: rest)
  | span {body rest : List Char} (closes : ¬ ['*', '/'] <:+: body) (gap : Gap rest) :
      Gap ('/' :: '*' :: (body ++ '*' :: '/' :: rest))
  | line {text rest : List Char} (one : '\n' ∉ text) (opens : ¬ ['/', '*'] <:+: '/' :: '/' :: text)
      (gap : Gap rest) : Gap ('/' :: '/' :: (text ++ '\n' :: rest))

theorem stripsTo_span (closes : ¬ ['*', '/'] <:+: body) :
    StripsTo ('/' :: '*' :: (body ++ ['*', '/'])) [] := by
  intro rest
  have span := dropSpans_span closes rest
  rw [strip]
  simp only [List.cons_append, List.append_assoc, List.nil_append, span]
  rfl

theorem stripsTo_line (one : '\n' ∉ s) (opens : ¬ ['/', '*'] <:+: '/' :: '/' :: s) :
    StripsTo ('/' :: '/' :: (s ++ ['\n'])) ['\n'] := by
  intro rest
  have opens : ¬ ['/', '*'] <:+: ('/' :: '/' :: s) ++ '\n' :: [] := by
    rw [pair_infix_append_cons (by decide) (by decide)]
    exact not_or.mpr ⟨opens, by simp⟩
  have last : (('/' :: '/' :: s) ++ ['\n']).getLast? = some '/' → rest.head? ≠ some '*' := by
    rw [List.getLast?_concat]
    exact fun slash => absurd slash (by decide)
  have drop := dropSpans_append opens last
  simp only [List.cons_append] at drop
  rw [strip, List.cons_append, List.cons_append, drop, cutLines, List.append_assoc]
  exact cutLinesFrom_line one _

/-- Space and comments come to space. -/
theorem Gap.stripsTo (gap : Gap s) : ∃ t, Spaces t ∧ StripsTo s t := by
  induction gap with
  | nil => exact ⟨[], fun c mem => absurd mem List.not_mem_nil, fun rest => rfl⟩
  | @space c rest space _ ih =>
    obtain ⟨t, spaces, strips⟩ := ih
    have slash : '/' ∉ [c] := by
      rintro mem
      rw [← List.mem_singleton.mp mem] at space
      exact absurd space (by decide)
    refine ⟨c :: t, ?_, (stripsTo_of_notMem slash).append strips⟩
    exact List.forall_mem_cons.mpr ⟨space, spaces⟩
  | span closes _ ih =>
    obtain ⟨t, spaces, strips⟩ := ih
    refine ⟨t, spaces, ?_⟩
    have both := (stripsTo_span closes).append strips
    simpa using both
  | line one opens _ ih =>
    obtain ⟨t, spaces, strips⟩ := ih
    refine ⟨'\n' :: t, List.forall_mem_cons.mpr ⟨by decide, spaces⟩, ?_⟩
    have both := (stripsTo_line one opens).append strips
    simpa using both

end Comment

end TriggerSheet
