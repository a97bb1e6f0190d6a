import TriggerSheet.Proofs.Sheet.Stripping
import TriggerSheet.Proofs.Text.Split

/-!
# Which comments a text has

A text has one division into spans and what stands between them: each span begins where a comment
is opened and closed for the first time behind the span before it, and ends at the first `*/`
behind the two characters that open it. What is between the spans is kept, put together, and cut
line by line. So a `/*` can come about where a span was, and stays; a `//` that comes about there
ends its line.

## Main definitions

* `Comment.ClosedAt` — a comment is opened at a place, and closed
* `Comment.Division`, `Comment.Divides` — a text taken apart into its spans and the rest
* `Comment.cutLine`, `Comment.cutEachLine` — lines up to their first `//`

## Main results

* `Comment.Divides.unique`, `Comment.exists_divides` — a text has one division
* `Comment.Divides.dropSpans_eq` — the first pass keeps what stands between the spans
* `Comment.cutLines_eq_cutEachLine` — the second pass goes line by line
* `Comment.strip_eq_cutEachLine` — both passes
-/

namespace TriggerSheet.Comment

open Text (pair_infix_cons pair_infix_append_cons splitOn split_induction)

/-! ### Divisions -/

/-- A comment is opened at a place, and closed behind the two characters that open it. -/
def ClosedAt (s : List Char) (i : ℕ) : Prop :=
  ['/', '*'] <+: s.drop i ∧ ['*', '/'] <:+: s.drop (i + 2)

/-- A text that is taken apart. -/
structure Division where
  /-- The spans, each behind what stands between it and the one before. -/
  parts : List (List Char × List Char)
  /-- What stands behind the last span. -/
  last : List Char

namespace Division

/-- The whole text. -/
def text (d : Division) : List Char := d.parts.flatMap (fun part => part.1 ++ part.2) ++ d.last

/-- What stands between the spans. -/
def front (d : Division) : List Char := d.parts.flatMap Prod.fst

/-- The text without its spans. -/
def kept (d : Division) : List Char := d.front ++ d.last

/-- Puts a character in front of a text that is taken apart. -/
def push (c : Char) : Division → Division
  | ⟨[], last⟩ => ⟨[], c :: last⟩
  | ⟨(before, span) :: parts, last⟩ => ⟨(c :: before, span) :: parts, last⟩

end Division

/-- The first span of a text, with what stands on either side of it: no comment that is opened in
front of it is closed, and it goes up to the first `*/` behind the two characters that open it. -/
structure FirstSpan (before span rest : List Char) : Prop where
  first : ∀ i < before.length, ¬ClosedAt (before ++ (span ++ rest)) i
  closes : ∃ body, span = '/' :: '*' :: (body ++ ['*', '/']) ∧ ¬['*', '/'] <:+: body

/-- A division is that into spans: each is the first one behind the one before it, and behind the
last one no comment is closed. -/
inductive Divides : Division → List Char → Prop
  | last {s : List Char} (unclosed : ∀ i, ¬ClosedAt s i) : Divides ⟨[], s⟩ s
  | span {before span rest last s : List Char} {parts : List (List Char × List Char)}
      (text : s = before ++ (span ++ rest)) (first : FirstSpan before span rest)
      (behind : Divides ⟨parts, last⟩ rest) : Divides ⟨(before, span) :: parts, last⟩ s

variable {s before span rest line : List Char} {d d' : Division} {c : Char}

/-! ### Where a comment is closed -/

/-- The rest behind a comment begins behind its first `*/`. -/
theorem afterClose?_eq_some (closed : afterClose? s = some rest) :
    ∃ body, s = body ++ '*' :: '/' :: rest ∧ ¬['*', '/'] <:+: body := by
  induction s with
  | nil => simp [afterClose?] at closed
  | cons c s ih =>
    rw [afterClose?] at closed
    split at closed
    next here =>
      obtain ⟨rfl, slash⟩ := here
      obtain ⟨more, rfl⟩ := List.head?_eq_some_iff.mp slash
      obtain rfl := Option.some.inj closed
      exact ⟨[], rfl, by simp⟩
    next apart =>
      obtain ⟨body, rfl, closes⟩ := ih closed
      refine ⟨c :: body, rfl, fun pair => ?_⟩
      rcases pair_infix_cons.mp pair with ⟨star, slash⟩ | pair
      · refine apart ⟨star, ?_⟩
        rw [List.head?_append, slash]
        rfl
      · exact closes pair

theorem afterClose?_eq_none (unclosed : afterClose? s = none) : ¬['*', '/'] <:+: s := by
  induction s with
  | nil => simp
  | cons c s ih =>
    rw [afterClose?] at unclosed
    split at unclosed
    next => cases unclosed
    next apart =>
      rw [pair_infix_cons]
      exact not_or.mpr ⟨apart, ih unclosed⟩

/-- Where no span begins, no comment is opened and closed. -/
theorem not_closedAt_zero (none : afterSpan? s = none) : ¬ClosedAt s 0 := by
  rintro ⟨opens, closes⟩
  obtain ⟨rest, rfl⟩ := opens
  exact afterClose?_eq_none none closes

/-- Where a comment is not opened and closed, no span begins. -/
theorem afterSpan?_of_not_closedAt (unclosed : ¬ClosedAt s 0) : afterSpan? s = none := by
  cases read : afterSpan? s with
  | none => rfl
  | some rest =>
    unfold afterSpan? at read
    split at read
    next inside =>
      obtain ⟨body, rfl, -⟩ := afterClose?_eq_some read
      exact absurd ⟨⟨_, rfl⟩, ⟨body, rest, by simp⟩⟩ unclosed
    next => cases read

/-- A span is a comment that is opened and closed. -/
theorem FirstSpan.closedAt (first : FirstSpan before span rest) :
    ClosedAt (before ++ (span ++ rest)) before.length := by
  obtain ⟨body, rfl, -⟩ := first.closes
  refine ⟨?_, ?_⟩
  · rw [List.drop_left]
    exact ⟨_, rfl⟩
  · rw [List.drop_length_add_append]
    exact ⟨body, rest, by simp⟩

/-- A text has one first span at most. -/
theorem FirstSpan.unique {before' span' rest' : List Char} (first : FirstSpan before span rest)
    (first' : FirstSpan before' span' rest')
    (same : before ++ (span ++ rest) = before' ++ (span' ++ rest')) :
    before = before' ∧ span = span' ∧ rest = rest' := by
  have length : before.length = before'.length := by
    -- The one that begins earlier is closed in front of the other.
    refine Nat.le_antisymm (Nat.le_of_not_lt fun lt => ?_) (Nat.le_of_not_lt fun lt => ?_)
    · exact first.first _ lt (same ▸ first'.closedAt)
    · exact first'.first _ lt (same ▸ first.closedAt)
  obtain ⟨rfl, behind⟩ := List.append_inj same length
  obtain ⟨body, rfl, closes⟩ := first.closes
  obtain ⟨body', rfl, closes'⟩ := first'.closes
  have inside : body ++ '*' :: '/' :: rest = body' ++ '*' :: '/' :: rest' := by simpa using behind
  have left := afterClose?_append closes rest
  rw [inside, afterClose?_append closes'] at left
  obtain rfl := Option.some.inj left
  exact ⟨rfl, List.append_cancel_right behind, rfl⟩

/-! ### The division of a text -/

/-- The parts of a division make up the text. -/
theorem Divides.text_eq (divides : Divides d s) : d.text = s := by
  induction divides with
  | last => rfl
  | span text _ _ ih =>
    rw [text, ← ih]
    simp [Division.text]

/-- A text has one division at most. -/
theorem Divides.unique (divides : Divides d s) (divides' : Divides d' s) : d = d' := by
  induction divides generalizing d' with
  | last unclosed =>
    cases divides' with
    | last => rfl
    | span text first => exact absurd (text ▸ first.closedAt) (unclosed _)
  | span text first _ ih =>
    cases divides' with
    | last unclosed => exact absurd (text ▸ first.closedAt) (unclosed _)
    | span text' first' behind' =>
      obtain ⟨rfl, rfl, rfl⟩ := first.unique first' (text.symm.trans text')
      obtain ⟨rfl, rfl⟩ := Division.mk.inj (ih behind')
      rfl

/-- A character that opens no closed comment stands in front of the first span. -/
theorem Divides.push (divides : Divides d s) (unclosed : ¬ClosedAt (c :: s) 0) :
    Divides (d.push c) (c :: s) := by
  cases divides with
  | last rest =>
    refine .last fun i => ?_
    cases i with
    | zero => exact unclosed
    | succ i => exact rest i
  | @span before span rest _ _ _ text first behind =>
    subst text
    have text : c :: (before ++ (span ++ rest)) = (c :: before) ++ (span ++ rest) := rfl
    refine .span text ⟨fun i lt => ?_, first.closes⟩ behind
    cases i with
    | zero => exact unclosed
    | succ i => exact first.first i (Nat.lt_of_succ_lt_succ lt)

/-- A text has a division. -/
theorem exists_divides (s : List Char) : ∃ d, Divides d s := by
  induction s using dropSpans.induct with
  | case1 s rest read ih =>
    obtain ⟨⟨parts, last⟩, divides⟩ := ih
    unfold afterSpan? at read
    split at read
    next inside =>
      obtain ⟨body, rfl, closes⟩ := afterClose?_eq_some read
      have text : '/' :: '*' :: (body ++ '*' :: '/' :: rest) =
          [] ++ ('/' :: '*' :: (body ++ ['*', '/']) ++ rest) := by simp
      exact ⟨_, .span text ⟨fun i lt => absurd lt (Nat.not_lt_zero i), body, rfl, closes⟩ divides⟩
    next => cases read
  | case2 => exact ⟨_, .last fun i closed => by simp [ClosedAt] at closed⟩
  | case3 c rest read ih =>
    obtain ⟨d, divides⟩ := ih
    exact ⟨_, divides.push (not_closedAt_zero read)⟩

/-! ### The first pass -/

/-- What stands in front of the first span is kept. -/
theorem dropSpans_append_of_not_closedAt (before s : List Char)
    (unclosed : ∀ i < before.length, ¬ClosedAt (before ++ s) i) :
    dropSpans (before ++ s) = before ++ dropSpans s := by
  induction before with
  | nil => rfl
  | cons c before ih =>
    have here : afterSpan? (c :: (before ++ s)) = none :=
      afterSpan?_of_not_closedAt (unclosed 0 (Nat.succ_pos _))
    rw [List.cons_append, dropSpans_cons here,
      ih fun i lt => unclosed (i + 1) (Nat.succ_lt_succ lt), List.cons_append]

/-- The first pass keeps what stands between the spans, and what stands behind the last one. -/
theorem Divides.dropSpans_eq (divides : Divides d s) : dropSpans s = d.kept := by
  induction divides with
  | @last s unclosed =>
    have all := dropSpans_append_of_not_closedAt s [] (by simpa using fun i _ => unclosed i)
    rw [List.append_nil, dropSpans_nil, List.append_nil] at all
    exact all
  | @span before span rest _ _ _ text first _ ih =>
    obtain ⟨body, rfl, closes⟩ := first.closes
    have inside : '/' :: '*' :: (body ++ ['*', '/']) ++ rest =
        '/' :: '*' :: (body ++ '*' :: '/' :: rest) := by simp
    rw [text, dropSpans_append_of_not_closedAt _ _ first.first, inside, dropSpans_span closes, ih]
    simp [Division.kept, Division.front]

/-! ### The second pass -/

/-- A `//` stands at a place of a line. -/
def slashesAt (line : List Char) (i : ℕ) : Bool := ['/', '/'].isPrefixOf (line.drop i)

/-- A line up to its first `//`. -/
def cutLine (line : List Char) : List Char :=
  line.take (((List.range line.length).find? (slashesAt line)).getD line.length)

/-- A text with each of its lines up to its first `//`. -/
def cutEachLine (s : List Char) : List Char :=
  ['\n'].intercalate ((splitOn '\n' s).map cutLine)

theorem cutLine_nil : cutLine [] = [] := rfl

theorem cutLine_cons (c : Char) (line : List Char) :
    cutLine (c :: line) =
      if c = '/' ∧ line.head? = some '/' then [] else c :: cutLine line := by
  have here : slashesAt (c :: line) 0 = true ↔ c = '/' ∧ line.head? = some '/' := by
    cases line <;> simp [slashesAt, List.isPrefixOf, @eq_comm _ '/']
  rw [cutLine, List.length_cons, List.range_succ_eq_map]
  split
  next slashes => rw [List.find?_cons_of_pos (here.mpr slashes), Option.getD_some, List.take_zero]
  next apart =>
    rw [List.find?_cons_of_neg (mt here.mp apart), List.find?_map, cutLine]
    have later : slashesAt (c :: line) ∘ Nat.succ = slashesAt line := rfl
    rw [later]
    cases (List.range line.length).find? (slashesAt line) <;> rfl

theorem cutEachLine_of_notMem (one : '\n' ∉ line) : cutEachLine line = cutLine line := by
  simp [cutEachLine, Text.splitOn_of_notMem one]

theorem cutEachLine_cut (one : '\n' ∉ line) (rest : List Char) :
    cutEachLine (line ++ '\n' :: rest) = cutLine line ++ '\n' :: cutEachLine rest := by
  have some := Text.splitOn_ne_nil '\n' rest
  rw [cutEachLine, Text.splitOn_cut one, List.map_cons, cutEachLine]
  cases lines : splitOn '\n' rest with
  | nil => exact absurd lines some
  | cons next lines => simp [List.intercalate_cons_cons]

/-- The second pass cuts a line as far as it goes, and goes on behind it. -/
theorem cutLinesFrom_line_append (one : '\n' ∉ line) (rest : List Char)
    (ends : ∀ c ∈ rest.head?, c = '\n') :
    cutLinesFrom false (line ++ rest) = cutLine line ++ cutLinesFrom false rest ∧
      cutLinesFrom true (line ++ rest) = cutLinesFrom false rest := by
  induction line with
  | nil =>
    refine ⟨rfl, ?_⟩
    cases rest with
    | nil => rfl
    | cons c rest =>
      obtain rfl := ends c rfl
      rfl
  | cons c line ih =>
    obtain ⟨other, one⟩ := not_or.mp (mt List.mem_cons.mpr one)
    obtain ⟨cuts, skips⟩ := ih one
    have head : (line ++ rest).head? = some '/' ↔ line.head? = some '/' := by
      cases line with
      | nil =>
        -- Behind the line there is no slash.
        refine iff_of_false (fun slash => ?_) (by simp)
        exact absurd (ends '/' slash) (by decide)
      | cons => rfl
    refine ⟨?_, ?_⟩
    · rw [cutLine_cons]
      by_cases slashes : c = '/' ∧ line.head? = some '/'
      · rw [if_pos slashes, List.cons_append, cutLinesFrom, if_neg (Ne.symm other),
          if_pos (.inr (slashes.imp_right head.mpr)), skips, List.nil_append]
      · have next : c = '/' → (line ++ rest).head? ≠ some '/' :=
          fun slash next => slashes ⟨slash, head.mp next⟩
        rw [if_neg slashes, List.cons_append, cutLinesFrom_cons next, cuts, List.cons_append]
    · rw [List.cons_append, cutLinesFrom, if_neg (Ne.symm other), if_pos (.inl rfl), skips]

/-- The second pass goes line by line. -/
theorem cutLines_eq_cutEachLine (s : List Char) : cutLines s = cutEachLine s := by
  induction s using split_induction '\n' with
  | whole s one =>
    have cut := (cutLinesFrom_line_append one [] (by simp)).1
    rw [List.append_nil] at cut
    rw [cutLines, cut, cutEachLine_of_notMem one]
    exact List.append_nil _
  | cut line rest one ih =>
    have cut := (cutLinesFrom_line_append one ('\n' :: rest) (by simp)).1
    rw [cutLines, cut, cutEachLine_cut one, ← ih]
    rfl

/-! ### What is left -/

theorem not_pair_cutLine (line : List Char) : ¬['/', '/'] <:+: cutLine line := by
  induction line with
  | nil => simp [cutLine_nil]
  | cons c line ih =>
    rw [cutLine_cons]
    split
    next => simp
    next apart =>
      rw [pair_infix_cons]
      rintro (⟨slash, next⟩ | pair)
      · -- What is left of the rest begins as the rest does.
        refine apart ⟨slash, ?_⟩
        obtain ⟨more, all⟩ : cutLine line <+: line := List.take_prefix _ _
        rw [← all, List.head?_append, next]
        rfl
      · exact ih pair

theorem not_pair_cutEachLine (s : List Char) : ¬['/', '/'] <:+: cutEachLine s := by
  induction s using split_induction '\n' with
  | whole s one =>
    rw [cutEachLine_of_notMem one]
    exact not_pair_cutLine s
  | cut line rest one ih =>
    rw [cutEachLine_cut one, pair_infix_append_cons (by decide) (by decide)]
    exact not_or.mpr ⟨not_pair_cutLine line, ih⟩

/-- No `//` is left of a text. -/
theorem not_pair_strip (s : List Char) : ¬['/', '/'] <:+: strip s := by
  rw [strip, cutLines_eq_cutEachLine]
  exact not_pair_cutEachLine _

/-- A `/*` stays if no `//` stands in front of it on its line. -/
theorem cutEachLine_opener
    (apart : ¬['/', '/'] <:+: before.rtakeWhile (· ≠ '\n') ++ ['/']) (after : List Char) :
    cutEachLine (before ++ '/' :: '*' :: after) =
      cutEachLine before ++ '/' :: '*' :: cutEachLine after := by
  induction before using split_induction '\n' with
  | whole before one =>
    have line : before.rtakeWhile (· ≠ '\n') = before :=
      List.rtakeWhile_eq_self_iff.mpr fun c mem => decide_eq_true fun is => one (is ▸ mem)
    rw [line] at apart
    have front : ¬['/', '/'] <:+: before := fun pair => apart (pair.trans ⟨[], ['/'], rfl⟩)
    have opener : ¬['/', '/'] <:+: before ++ ['/', '*'] := by
      have more : before ++ ['/', '*'] = (before ++ ['/']) ++ '*' :: [] := by simp
      rw [more, pair_infix_append_cons (by decide) (by decide)]
      exact not_or.mpr ⟨apart, by simp⟩
    have kept : cutLines before = before := by
      have all : cutLinesFrom false (before ++ []) = before ++ [] :=
        cutLinesFrom_append front (by simp)
      rwa [List.append_nil] at all
    have kept' : cutLines (before ++ ['/', '*'] ++ after) =
        before ++ ['/', '*'] ++ cutLines after :=
      cutLinesFrom_append opener (by simp)
    rw [← cutLines_eq_cutEachLine, ← cutLines_eq_cutEachLine, ← cutLines_eq_cutEachLine, kept]
    simpa using kept'
  | cut line rest one ih =>
    have last : (line ++ '\n' :: rest).rtakeWhile (· ≠ '\n') = rest.rtakeWhile (· ≠ '\n') := by
      rw [List.rtakeWhile, List.reverse_append, List.reverse_cons, List.append_assoc,
        List.singleton_append, Text.takeWhile_append_cons (by decide)]
      rfl
    rw [last] at apart
    rw [List.append_assoc, List.cons_append, cutEachLine_cut one, cutEachLine_cut one, ih apart,
      List.append_assoc, List.cons_append]

/-! ### Both passes -/

/-- A text has one division into comments and what stands between them. What is left is the latter,
put together and with each of its lines up to its first `//`. So no `//` is left; a `/*` that is
never closed stays, unless its line ends in front of it; and a text without slashes stays. -/
theorem strip_eq_cutEachLine (s : List Char) :
    (∃! d, Divides d s) ∧
      (∀ d, Divides d s → d.text = s ∧ strip s = cutEachLine d.kept ∧
        ∀ before after, d.last = before ++ '/' :: '*' :: after →
          ¬['/', '/'] <:+: (d.front ++ before).rtakeWhile (· ≠ '\n') ++ ['/'] →
          strip s = cutEachLine (d.front ++ before) ++ '/' :: '*' :: cutEachLine after) ∧
      ¬['/', '/'] <:+: strip s ∧ ('/' ∉ s → strip s = s) := by
  refine ⟨?_, fun d divides => ?_, not_pair_strip s, fun notMem =>
    (stripsTo_of_notMem notMem).strip_eq⟩
  · obtain ⟨d, divides⟩ := exists_divides s
    exact ⟨d, divides, fun d' divides' => divides'.unique divides⟩
  · have both : strip s = cutEachLine d.kept := by
      rw [strip, divides.dropSpans_eq, cutLines_eq_cutEachLine]
    refine ⟨divides.text_eq, both, fun before after last apart => ?_⟩
    rw [both, Division.kept, last, ← List.append_assoc]
    exact cutEachLine_opener apart after

/-- Two slashes that a span kept apart, and a comment on the next line that is never closed. -/
def joinedSlashes : Division := ⟨[("/".toList, "/*x*/".toList)], "/ a \n b /* c".toList⟩

theorem divides_joinedSlashes : Divides joinedSlashes joinedSlashes.text := by
  have closes : ¬['*', '/'] <:+: "x".toList := by decide +kernel
  have apart : ∀ i < 1, ¬ClosedAt joinedSlashes.text i := by
    unfold ClosedAt
    decide +kernel
  have text : joinedSlashes.text = "/".toList ++ ("/*x*/".toList ++ joinedSlashes.last) := rfl
  refine .span text ⟨apart, _, rfl, closes⟩ (.last fun i closed => ?_)
  -- No `*/` is behind the span at all.
  have inside := closed.2.trans (List.drop_suffix (i + 2) joinedSlashes.last).isInfix
  exact absurd inside (by decide +kernel)

theorem strip_joinedSlashes :
    Divides joinedSlashes joinedSlashes.text ∧
      joinedSlashes.last = "/ a \n b ".toList ++ '/' :: '*' :: " c".toList ∧
      strip joinedSlashes.text = "\n b /* c".toList := by
  obtain ⟨-, kept, -⟩ := strip_eq_cutEachLine joinedSlashes.text
  obtain ⟨-, -, opener⟩ := kept joinedSlashes divides_joinedSlashes
  have left := opener "/ a \n b ".toList " c".toList rfl (by decide +kernel)
  exact ⟨divides_joinedSlashes, rfl, left.trans (by decide +kernel)⟩

end TriggerSheet.Comment
