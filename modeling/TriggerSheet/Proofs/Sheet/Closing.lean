import Mathlib.Data.List.Forall2
import TriggerSheet.Proofs.Sheet.Stripping

/-!
# Closing braces at the end

How many closing braces stand at the end of a sheet makes no difference. A brace at the end closes
a body that would have ended there anyway, or closes nothing, or is part of a comment; so the
groups that are read differ in braces at the end of a body at most, and these mean nothing to the
reader of the body.

## Main definitions

* `Group.Extended` — a group with more closing braces at the end of its body

## Main results

* `Action.readAll_append_braces`, `Clause.readAll_append_braces`, `Sheet.blocksOf_append_braces` —
  no reader minds closing braces at the end
* `Sheet.parse_append_braces` — nor does it matter how a sheet ends
-/

namespace TriggerSheet

open Text (Braces)

/-! ### Runs up to the end of a text -/

namespace Text

variable {p : Char → Bool} {s t : List Char}

theorem dropWhile_append_of_stops (stops : ∀ c ∈ t, p c = false) (s : List Char) :
    (s ++ t).dropWhile p = s.dropWhile p ++ t := by
  cases t with
  | nil => rw [List.append_nil, List.append_nil]
  | cons c t => exact dropWhile_append_cons (stops c (List.mem_cons_self ..)) s t

theorem takeWhile_append_of_stops (stops : ∀ c ∈ t, p c = false) (s : List Char) :
    (s ++ t).takeWhile p = s.takeWhile p := by
  cases t with
  | nil => rw [List.append_nil]
  | cons c t => exact takeWhile_append_cons (stops c (List.mem_cons_self ..)) s t

theorem Braces.stops (braces : Braces t) (stops : p '}' = false) : ∀ c ∈ t, p c = false :=
  fun c mem => braces c mem ▸ stops

theorem Braces.head? (braces : Braces t) {c : Char} (other : c ≠ '}') : t.head? ≠ some c :=
  fun first => other (braces c (List.mem_of_head? first))

end Text

variable {braces : List Char}

/-! ### Actions -/

namespace Action

variable {s : List Char}

/-- The rest of a text behind something that was read, with more at its end. -/
def extend {α : Type} (more : List Char) (read : α × List Char) : α × List Char :=
  (read.1, read.2 ++ more)

theorem readValue?_append_braces (only : Braces braces) (s : List Char) :
    readValue? (s ++ braces) = (readValue? s).map (extend braces) := by
  rw [readValue?, readValue?, Text.dropWhile_append_of_stops (only.stops (by decide)),
    Text.takeWhile_append_of_stops (only.stops (by decide))]
  cases left : s.dropWhile isValueChar with
  | nil =>
    -- A value that is not ended by the text is not ended by a brace.
    cases braces with
    | nil => rfl
    | cons c more =>
      cases only c (List.mem_cons_self ..)
      rfl
  | cons c rest =>
    by_cases ends : c = ';'
    · subst ends
      cases named : (s.takeWhile isValueChar).isEmpty <;> simp [named, extend]
    · simp [ends]

theorem readColon?_append_braces (only : Braces braces) (s : List Char) :
    readColon? (s ++ braces) = (readColon? s).map (extend braces) := by
  cases s with
  | nil =>
    cases braces with
    | nil => rfl
    | cons c more =>
      cases only c (List.mem_cons_self ..)
      rfl
  | cons c rest =>
    by_cases colon : c = ':'
    · subst colon
      exact readValue?_append_braces only rest
    · simp [readColon?, colon]

theorem readAt?_append_braces (only : Braces braces) (s : List Char) :
    readAt? (s ++ braces) =
      (readAt? s).map fun (property, read) => (property, extend braces read) := by
  have letters : ∀ c ∈ braces, isPropertyChar c = false := only.stops (by decide)
  have blanks : ∀ c ∈ braces, Text.isBlank c = false := only.stops (by decide)
  rw [readAt?, readAt?, Text.takeWhile_append_of_stops letters,
    Text.dropWhile_append_of_stops letters, Text.trimStart, Text.trimStart,
    Text.dropWhile_append_of_stops blanks, readColon?_append_braces only]
  dsimp only
  split
  · rfl
  · rw [Option.map_map, Option.map_map]
    rfl

theorem readAll_braces (only : Braces braces) : readAll braces = [] := by
  induction braces with
  | nil => exact readAll_nil
  | cons c braces ih =>
    cases only c (List.mem_cons_self ..)
    rw [readAll_cons_of_not_isPropertyChar (by decide)]
    exact ih fun c mem => only c (List.mem_cons_of_mem _ mem)

/-- Closing braces at the end of a body end no action. -/
theorem readAll_append_braces (only : Braces braces) (s : List Char) :
    readAll (s ++ braces) = readAll s := by
  have extended := readAt?_append_braces only s
  induction s using readAll.induct with
  | case1 s property value rest read ih =>
    rw [read] at extended
    rw [readAll_of_readAt? extended, readAll_of_readAt? read,
      ih (readAt?_append_braces only rest)]
  | case2 => rw [List.nil_append, readAll_braces only, readAll_nil]
  | case3 c rest read ih =>
    rw [read, List.cons_append] at extended
    rw [List.cons_append, readAll_cons extended, readAll_cons read,
      ih (readAt?_append_braces only rest)]

end Action

/-! ### Groups -/

/-- A group with more closing braces at the end of its body. -/
def Group.Extended (group group' : List Char × List Char) : Prop :=
  group'.1 = group.1 ∧ ∃ braces, Braces braces ∧ group'.2 = group.2 ++ braces

theorem Level.resume_append_braces (only : Braces braces) (level : Level) (s : List Char) :
    level.resume (s ++ braces) = level.resume s ++ braces := by
  cases level with
  | sheet => rfl
  | block =>
    simp only [resume, Text.dropWhile_append_of_stops (only.stops (p := Text.isSpace) (by decide))]
    cases left : s.dropWhile Text.isSpace with
    | nil =>
      cases braces with
      | nil => rfl
      | cons c more =>
        cases only c (List.mem_cons_self ..)
        rfl
    | cons c rest =>
      by_cases ends : c = ';'
      · subst ends
        rfl
      · simp [ends]

/-- Closing braces at the end of a text get into the bodies of its groups at most. -/
theorem Group.texts_append_braces (only : Braces braces) (level : Level) (s : List Char) :
    List.Forall₂ Group.Extended (Group.texts level s) (Group.texts level (s ++ braces)) := by
  induction s using Text.brace_induction with
  | free s free =>
    have flat : '{' ∉ s ++ braces := by simp [free.notMem.1, only.notMem]
    rw [texts_of_notMem free.notMem.1, texts_of_notMem flat]
    exact .nil
  | closing pre rest free ih =>
    rw [List.append_assoc, List.cons_append, texts_closing free, texts_closing free]
    exact ih
  | opening pre rest free ih =>
    rw [List.append_assoc, List.cons_append, texts_opening free, texts_opening free]
    by_cases closed : (Body.read 1 rest).unclosed = 0
    · -- The braces are behind the body.
      have short : (level.resume (Body.read 1 rest).rest).length ≤ rest.length :=
        Nat.le_trans (level.resume_suffix _).length_le (Body.length_rest_read_le 1 rest)
      rw [Body.read_append_of_closed Nat.one_pos closed, Level.resume_append_braces only]
      exact .cons ⟨rfl, [], fun c mem => absurd mem List.not_mem_nil, (List.append_nil _).symm⟩
        (ih _ short)
    · -- Some of them get into the body, and the others close nothing.
      obtain ⟨text, left⟩ := Body.read_of_unclosed Nat.one_pos closed
      obtain ⟨taken, more, only', only'', text', left'⟩ :=
        Body.read_append_braces only Nat.one_pos closed
      have flat : '{' ∉ level.resume more :=
        fun mem => only''.notMem ((level.resume_suffix _).subset mem)
      rw [text, left, text', left', texts_of_notMem flat]
      have none : '{' ∉ level.resume [] :=
        fun mem => absurd ((level.resume_suffix _).subset mem) List.not_mem_nil
      rw [texts_of_notMem none]
      exact .cons ⟨rfl, taken, only', rfl⟩ .nil

/-- Readers of groups that do not mind closing braces at the end of a body read the same. -/
theorem Group.map_texts_append_braces {α : Type} (only : Braces braces) (level : Level)
    (read : List Char × List Char → α)
    (same : ∀ group group', Group.Extended group group' → read group' = read group)
    (s : List Char) :
    (Group.texts level (s ++ braces)).map read = (Group.texts level s).map read := by
  have groups := Group.texts_append_braces only level s
  revert groups
  generalize Group.texts level s = short, Group.texts level (s ++ braces) = long
  intro groups
  induction groups with
  | nil => rfl
  | cons extended _ ih => exact congrArg₂ (· :: ·) (same _ _ extended) ih

/-- Closing braces at the end of the body of a block end no clause. -/
theorem Clause.readAll_append_braces (only : Braces braces) (s : List Char) :
    Clause.readAll (s ++ braces) = Clause.readAll s := by
  have clauses := Group.map_texts_append_braces only .block
    (fun group => Clause.ofParts? group.1 group.2) (fun group group' extended => ?_) s
  · have flat (l : List (List Char × List Char)) :
        (l.filterMap fun group => Clause.ofParts? group.1 group.2) =
          (l.map fun group => Clause.ofParts? group.1 group.2).filterMap id := by
      rw [List.filterMap_map]
      rfl
    rw [Clause.readAll_eq, Clause.readAll_eq, flat, flat, clauses]
  · obtain ⟨name, more, only', body⟩ := extended
    rw [Clause.ofParts?, Clause.ofParts?, name, body, Action.readAll_append_braces only']

/-- Closing braces at the end of a text without comments end no block. -/
theorem Sheet.blocksOf_append_braces (only : Braces braces) (code : List Char) :
    blocksOf (code ++ braces) = blocksOf code := by
  rw [blocksOf_eq, blocksOf_eq]
  refine Group.map_texts_append_braces only .sheet _ (fun group group' extended => ?_) code
  obtain ⟨name, more, only', body⟩ := extended
  rw [Block.ofParts, Block.ofParts, name, body, Clause.readAll_append_braces only']

/-! ### Comments -/

namespace Comment

theorem afterClose?_braces (only : Braces braces) : afterClose? braces = none := by
  induction braces with
  | nil => rfl
  | cons c braces ih =>
    cases only c (List.mem_cons_self ..)
    rw [afterClose?, if_neg (by simp)]
    exact ih fun c mem => only c (List.mem_cons_of_mem _ mem)

theorem afterClose?_append_braces (only : Braces braces) (s : List Char) :
    afterClose? (s ++ braces) = (afterClose? s).map (· ++ braces) := by
  induction s with
  | nil => exact afterClose?_braces only
  | cons c s ih =>
    rw [List.cons_append, afterClose?, afterClose?, ih]
    cases s with
    | nil =>
      have apart : braces.head? ≠ some '/' := only.head? (by decide)
      simp [apart, afterClose?]
    | cons d s =>
      by_cases closes : c = '*' ∧ d = '/' <;> simp [closes]

theorem afterSpan?_append_braces (only : Braces braces) (s : List Char) :
    afterSpan? (s ++ braces) = (afterSpan? s).map (· ++ braces) := by
  have apart : braces.head? ≠ some '*' := only.head? (by decide)
  have apart' : braces.head? ≠ some '/' := only.head? (by decide)
  match s with
  | [] => cases braces <;> simp_all [afterSpan?]
  | [c] => cases braces <;> simp_all [afterSpan?]
  | c :: d :: s =>
    by_cases opens : c = '/' ∧ d = '*'
    · obtain ⟨rfl, rfl⟩ := opens
      exact afterClose?_append_braces only s
    · have none (t : List Char) : afterSpan? (c :: d :: t) = none :=
        afterSpan?_eq_none fun slash star => opens ⟨slash, Option.some.inj star⟩
      rw [List.cons_append, List.cons_append, none, none]
      rfl

theorem dropSpans_braces (only : Braces braces) : dropSpans braces = braces := by
  induction braces with
  | nil => exact dropSpans_nil
  | cons c braces ih =>
    have none : afterSpan? (c :: braces) = none := by
      cases only c (List.mem_cons_self ..)
      rfl
    rw [dropSpans_cons none, ih fun c mem => only c (List.mem_cons_of_mem _ mem)]

theorem dropSpans_append_braces (only : Braces braces) (s : List Char) :
    dropSpans (s ++ braces) = dropSpans s ++ braces := by
  have extended := afterSpan?_append_braces only s
  induction s using dropSpans.induct with
  | case1 s rest span ih =>
    rw [span] at extended
    rw [dropSpans_of_afterSpan? extended, dropSpans_of_afterSpan? span,
      ih (afterSpan?_append_braces only rest)]
  | case2 => rw [List.nil_append, dropSpans_braces only, dropSpans_nil, List.nil_append]
  | case3 c rest span ih =>
    rw [span, List.cons_append] at extended
    rw [List.cons_append, dropSpans_cons extended, dropSpans_cons span,
      ih (afterSpan?_append_braces only rest), List.cons_append]

theorem cutLinesFrom_braces (only : Braces braces) (skipping : Bool) :
    cutLinesFrom skipping braces = if skipping then [] else braces := by
  induction braces with
  | nil => cases skipping <;> rfl
  | cons c braces ih =>
    have rest := ih fun c mem => only c (List.mem_cons_of_mem _ mem)
    cases only c (List.mem_cons_self ..)
    cases skipping
    · rw [cutLinesFrom, if_neg (by decide), if_neg (by simp), rest]
      rfl
    · rw [cutLinesFrom, if_neg (by decide), if_pos (.inl rfl), rest]
      rfl

/-- Closing braces at the end of a text are on its last line, and part of its comment if there is
one. -/
theorem cutLinesFrom_append_braces (only : Braces braces) (skipping : Bool) (s : List Char) :
    ∃ left, Braces left ∧
      cutLinesFrom skipping (s ++ braces) = cutLinesFrom skipping s ++ left := by
  induction s generalizing skipping with
  | nil =>
    refine ⟨_, ?_, cutLinesFrom_braces only skipping⟩
    cases skipping
    · exact only
    · exact fun c mem => absurd mem List.not_mem_nil
  | cons c s ih =>
    have head : (s ++ braces).head? = some '/' ↔ s.head? = some '/' := by
      cases s with
      | nil => simpa using only.head? (c := '/') (by decide)
      | cons d s => rfl
    simp only [List.cons_append, cutLinesFrom, head]
    split
    · obtain ⟨left, only', eq⟩ := ih false
      exact ⟨left, only', congrArg (c :: ·) eq⟩
    · split
      · exact ih true
      · obtain ⟨left, only', eq⟩ := ih false
        exact ⟨left, only', congrArg (c :: ·) eq⟩

theorem strip_append_braces (only : Braces braces) (s : List Char) :
    ∃ left, Braces left ∧ strip (s ++ braces) = strip s ++ left := by
  rw [strip, dropSpans_append_braces only]
  exact cutLinesFrom_append_braces only false (dropSpans s)

end Comment

/-! ### Sheets -/

/-- Missing or extra closing braces at the end of a sheet make no difference. -/
theorem Sheet.parse_append_braces (source : String) (n : ℕ) :
    Sheet.parse (source ++ String.ofList (List.replicate n '}')) = Sheet.parse source := by
  have only : Braces (List.replicate n '}') := fun c mem => (List.mem_replicate.mp mem).2
  obtain ⟨left, only', stripped⟩ := Comment.strip_append_braces only source.toList
  rw [parse, String.toList_append, String.toList_ofList, stripped, blocksOf_append_braces only']
  rfl

end TriggerSheet
