import TriggerSheet.Proofs.Sheet.Nesting
import TriggerSheet.Proofs.Text.Trim

/-!
# The groups of a text

A cursor counts bytes for the log; which groups it finds depends on the text behind it alone. So
the names and bodies of the groups follow three rules, one for each way a text can go on up to its
first brace: it has none, the brace closes nothing, or the brace opens a group.

## Main definitions

* `Level.resume` — the text that is left to read behind a group
* `Group.texts` — the names and bodies of the groups of a text

## Main results

* `Text.brace_induction` — induction along the braces of a text
* `Group.texts_of_notMem`, `Group.texts_closing`, `Group.texts_opening` — the three rules
-/

namespace TriggerSheet

open Text (BraceFree braceFree_cons)

/-! ### Up to the first brace -/

namespace Text

variable {p : Char → Bool} {c : Char} {pre rest s : List Char}

theorem dropWhile_append_cons (stops : p c = false) (pre rest : List Char) :
    (pre ++ c :: rest).dropWhile p = pre.dropWhile p ++ c :: rest := by
  rw [List.dropWhile_append]
  split
  next none => simp [List.isEmpty_iff.mp none, stops]
  next => rfl

theorem takeWhile_append_cons (stops : p c = false) (pre rest : List Char) :
    (pre ++ c :: rest).takeWhile p = pre.takeWhile p := by
  rw [List.takeWhile_append, List.takeWhile_cons_of_neg (by simp [stops]), List.append_nil]
  split
  next all => exact ((List.takeWhile_prefix p).eq_of_length all).symm
  next => rfl

theorem dropWhile_append_cons_of_pos (stops : p c = false) (passes : ∀ a ∈ pre, p a = true)
    (rest : List Char) : (pre ++ c :: rest).dropWhile p = c :: rest := by
  rw [dropWhile_append_cons stops, List.dropWhile_eq_nil_iff.mpr passes, List.nil_append]

theorem takeWhile_append_cons_of_pos (stops : p c = false) (passes : ∀ a ∈ pre, p a = true)
    (rest : List Char) : (pre ++ c :: rest).takeWhile p = pre := by
  rw [List.takeWhile_append_of_pos passes, List.takeWhile_cons_of_neg (by simp [stops]),
    List.append_nil]

theorem BraceFree.ne (free : BraceFree s) {c : Char} (mem : c ∈ s) : c ≠ '{' ∧ c ≠ '}' := by
  simpa [isBrace] using free c mem

theorem BraceFree.notMem (free : BraceFree s) : '{' ∉ s ∧ '}' ∉ s :=
  ⟨fun mem => (free.ne mem).1 rfl, fun mem => (free.ne mem).2 rfl⟩

/-- A text has no braces, or a first one. -/
theorem brace_cases (s : List Char) :
    BraceFree s ∨
      ∃ pre rest, BraceFree pre ∧ (s = pre ++ '}' :: rest ∨ s = pre ++ '{' :: rest) := by
  induction s with
  | nil => exact .inl fun _ mem => absurd mem (List.not_mem_nil)
  | cons c s ih =>
    have empty : BraceFree [] := fun _ mem => absurd mem List.not_mem_nil
    by_cases opens : c = '{'
    · exact .inr ⟨[], s, empty, .inr (by rw [opens]; rfl)⟩
    by_cases closes : c = '}'
    · exact .inr ⟨[], s, empty, .inl (by rw [closes]; rfl)⟩
    rcases ih with free | ⟨pre, rest, free, rfl | rfl⟩
    · exact .inl (braceFree_cons.mpr ⟨⟨opens, closes⟩, free⟩)
    · exact .inr ⟨c :: pre, rest, braceFree_cons.mpr ⟨⟨opens, closes⟩, free⟩, .inl rfl⟩
    · exact .inr ⟨c :: pre, rest, braceFree_cons.mpr ⟨⟨opens, closes⟩, free⟩, .inr rfl⟩

/-- Induction along the braces of a text: behind a brace that opens, what is left may start
anywhere. -/
theorem brace_induction {P : List Char → Prop} (free : ∀ s, BraceFree s → P s)
    (closing : ∀ pre rest, BraceFree pre → P rest → P (pre ++ '}' :: rest))
    (opening : ∀ pre rest, BraceFree pre → (∀ t, t.length ≤ rest.length → P t) →
      P (pre ++ '{' :: rest)) (s : List Char) : P s := by
  induction length : s.length using Nat.strong_induction_on generalizing s with
  | _ n ih =>
    rcases brace_cases s with none | ⟨pre, rest, before, rfl | rfl⟩
    · exact free s none
    · refine closing pre rest before (ih rest.length ?_ rest rfl)
      rw [← length, List.length_append, List.length_cons]
      omega
    · refine opening pre rest before fun t short => ih t.length ?_ t rfl
      rw [← length, List.length_append, List.length_cons]
      omega

end Text

/-! ### Reading from a cursor -/

namespace Cursor

variable {c : Cursor} {pre rest : List Char}

theorem skipSpace_rest (c : Cursor) : c.skipSpace.rest = c.rest.dropWhile Text.isSpace := rfl

/-- Without an opening brace nothing is read. -/
theorem next?_of_notMem (flat : '{' ∉ c.rest) : c.next? = none := by
  have all : c.skipSpace.rest.dropWhile (· ≠ '{') = [] := by
    refine List.dropWhile_eq_nil_iff.mpr fun a mem => ?_
    have mem : a ∈ c.rest := (List.dropWhile_suffix Text.isSpace).subset mem
    exact decide_eq_true fun is => flat (is ▸ mem)
  simp only [next?, all]

/-- A closing brace that comes first is passed over. -/
theorem next?_closing (text : c.rest = pre ++ '}' :: rest) (free : BraceFree pre)
    (more : '{' ∈ rest) :
    ∃ offset after, c.next? = some (.stray offset, after) ∧ after.rest = rest := by
  have space : c.skipSpace.rest = pre.dropWhile Text.isSpace ++ '}' :: rest := by
    rw [skipSpace_rest, text, Text.dropWhile_append_cons (by decide)]
  have free' := free.sublist (List.dropWhile_sublist Text.isSpace)
  have name : '}' ∈ c.skipSpace.rest.takeWhile (· ≠ '{') := by
    rw [space, List.takeWhile_append_of_pos fun a mem => by simpa using (free'.ne mem).1]
    simp
  obtain ⟨inside, opens⟩ : ∃ inside, c.skipSpace.rest.dropWhile (· ≠ '{') = '{' :: inside := by
    cases opens : c.skipSpace.rest.dropWhile (· ≠ '{') with
    | nil =>
      have never := List.dropWhile_eq_nil_iff.mp opens '{' (by rw [space]; simp [more])
      exact absurd never (by decide)
    | cons a inside =>
      have first := List.head?_dropWhile_not (· ≠ '{') c.skipSpace.rest
      rw [opens] at first
      exact ⟨inside, by simpa using first⟩
  refine ⟨_, c.skipSpace.passStray.2, by simp only [next?, opens, if_pos name]; rfl, ?_⟩
  have stray : c.skipSpace.rest.dropWhile (· ≠ '}') = '}' :: rest := by
    rw [space]
    exact Text.dropWhile_append_cons_of_pos (by decide)
      (fun a mem => by simpa using (free'.ne mem).2) rest
  simp only [passStray, moveOver, stray, List.drop_succ_cons, List.drop_zero]

/-- An opening brace that comes first begins the body of a group. -/
theorem next?_opening_eq (text : c.rest = pre ++ '{' :: rest) (free : BraceFree pre) :
    c.next? = some (.group (c.skipSpace.readGroup (pre.dropWhile Text.isSpace) rest).1,
      (c.skipSpace.readGroup (pre.dropWhile Text.isSpace) rest).2) := by
  have space : c.skipSpace.rest = pre.dropWhile Text.isSpace ++ '{' :: rest := by
    rw [skipSpace_rest, text, Text.dropWhile_append_cons (by decide)]
  have free' := free.sublist (List.dropWhile_sublist Text.isSpace)
  have before : ∀ a ∈ pre.dropWhile Text.isSpace, decide (a ≠ '{') = true :=
    fun a mem => by simpa using (free'.ne mem).1
  have name : c.skipSpace.rest.takeWhile (· ≠ '{') = pre.dropWhile Text.isSpace := by
    rw [space]
    exact Text.takeWhile_append_cons_of_pos (by decide) before rest
  have opens : c.skipSpace.rest.dropWhile (· ≠ '{') = '{' :: rest := by
    rw [space]
    exact Text.dropWhile_append_cons_of_pos (by decide) before rest
  simp only [next?, opens, name, if_neg free'.notMem.2]

/-- The name of the group is what stands in front of the brace. -/
theorem next?_opening (text : c.rest = pre ++ '{' :: rest) (free : BraceFree pre) :
    ∃ g after, c.next? = some (.group g, after) ∧ g.name = Text.trim pre ∧
      g.body = (Body.read 1 rest).text ∧ after.rest = (Body.read 1 rest).rest := by
  have trimmed : Text.trim (pre.dropWhile Text.isSpace) = Text.trim pre := by
    -- The space that is skipped would have been trimmed off.
    have blank : ∀ a ∈ pre.takeWhile Text.isSpace, Text.isBlank a = true :=
      fun a mem => Text.isBlank_of_isSpace (List.all_eq_true.mp List.all_takeWhile a mem)
    conv_rhs => rw [← List.takeWhile_append_dropWhile (p := Text.isSpace) (l := pre)]
    rw [Text.trim, Text.trim, Text.trimStart_append_of_blank blank]
  exact ⟨_, _, next?_opening_eq text free, trimmed, rfl, rfl⟩

end Cursor

/-! ### Names and bodies -/

/-- The text that is left to read behind a group: behind a clause, one semicolon is passed over. -/
def Level.resume : Level → List Char → List Char
  | .sheet, s => s
  | .block, s =>
    match s.dropWhile Text.isSpace with
    | ';' :: rest => rest
    | rest => rest

theorem Level.resume_suffix (level : Level) (s : List Char) : level.resume s <:+ s := by
  cases level with
  | sheet => exact List.suffix_rfl
  | block =>
    have space := List.dropWhile_suffix (l := s) Text.isSpace
    simp only [resume]
    split
    next rest eq => exact (List.suffix_cons ';' rest).trans (eq ▸ space)
    next => exact space

theorem Cursor.resume_rest (level : Level) (g : Group) (c : Cursor) :
    (c.resume level (.group g)).rest = level.resume c.rest := by
  cases level with
  | sheet => rfl
  | block =>
    simp only [resume, skipTerminator, Level.resume, ← skipSpace_rest]
    by_cases semicolon : ∃ rest, c.skipSpace.rest = ';' :: rest
    · obtain ⟨rest, eq⟩ := semicolon
      simp only [eq, moveOver]
    · -- Without a semicolon both sides leave the text as it is.
      have other (rest : List Char) (eq : c.skipSpace.rest = ';' :: rest) : False :=
        semicolon ⟨rest, eq⟩
      simp only

namespace Group

variable {level : Level} {pre rest : List Char}

/-- The name and the body of a group. -/
def parts (g : Group) : List Char × List Char := (g.name, g.body)

/-- The names and bodies of the groups of some pieces. -/
def partsOf (pieces : List Piece) : List (List Char × List Char) :=
  (pieces.filterMap Piece.group?).map parts

/-- The names and bodies of the groups of a text. -/
def texts (level : Level) (s : List Char) : List (List Char × List Char) :=
  (Group.all level s).map parts

/-- The groups that a cursor finds depend on the text behind it alone. -/
theorem partsOf_allFrom (level : Level) (c : Cursor) :
    partsOf (Piece.allFrom level c) = texts level c.rest := by
  suffices same : ∀ s (c c' : Cursor), c.rest = s → c'.rest = s →
      partsOf (Piece.allFrom level c) = partsOf (Piece.allFrom level c') from
    same c.rest c ⟨0, c.rest⟩ rfl rfl
  intro s
  induction s using Text.brace_induction with
  | free s free =>
    intro c c' text text'
    rw [Piece.allFrom_of_next?_eq_none (Cursor.next?_of_notMem (text ▸ free.notMem.1)),
      Piece.allFrom_of_next?_eq_none (Cursor.next?_of_notMem (text' ▸ free.notMem.1))]
  | closing pre rest free ih =>
    intro c c' text text'
    by_cases more : '{' ∈ rest
    · obtain ⟨offset, after, next, left⟩ := Cursor.next?_closing text free more
      obtain ⟨offset', after', next', left'⟩ := Cursor.next?_closing text' free more
      rw [Piece.allFrom_of_next?_eq_some next, Piece.allFrom_of_next?_eq_some next']
      exact ih _ _ (by cases level <;> exact left) (by cases level <;> exact left')
    · have flat : '{' ∉ pre ++ '}' :: rest := by simp [free.notMem.1, more]
      rw [Piece.allFrom_of_next?_eq_none (Cursor.next?_of_notMem (text ▸ flat)),
        Piece.allFrom_of_next?_eq_none (Cursor.next?_of_notMem (text' ▸ flat))]
  | opening pre rest free ih =>
    intro c c' text text'
    obtain ⟨g, after, next, name, body, left⟩ := Cursor.next?_opening text free
    obtain ⟨g', after', next', name', body', left'⟩ := Cursor.next?_opening text' free
    rw [Piece.allFrom_of_next?_eq_some next, Piece.allFrom_of_next?_eq_some next']
    have same : g.parts = g'.parts := by rw [parts, parts, name, name', body, body']
    have short : (level.resume (Body.read 1 rest).rest).length ≤ rest.length :=
      Nat.le_trans (level.resume_suffix _).length_le (Body.length_rest_read_le 1 rest)
    exact congrArg₂ (· :: ·) same (ih _ short _ _ (by rw [Cursor.resume_rest, left])
      (by rw [Cursor.resume_rest, left']))

/-- A text without an opening brace has no groups. -/
theorem texts_of_notMem {s : List Char} (flat : '{' ∉ s) : texts level s = [] := by
  have unread : Piece.all level s = [] :=
    Piece.allFrom_of_next?_eq_none (Cursor.next?_of_notMem flat)
  rw [texts, all, unread]
  rfl

/-- A closing brace that closes nothing is passed over, with all that stands in front of it. -/
theorem texts_closing (free : BraceFree pre) (rest : List Char) :
    texts level (pre ++ '}' :: rest) = texts level rest := by
  by_cases more : '{' ∈ rest
  · obtain ⟨offset, after, next, left⟩ :=
      Cursor.next?_closing (c := ⟨0, pre ++ '}' :: rest⟩) rfl free more
    have resumed : (after.resume level (.stray offset)).rest = rest := by cases level <;> exact left
    calc texts level (pre ++ '}' :: rest)
        = partsOf (Piece.allFrom level ⟨0, pre ++ '}' :: rest⟩) := rfl
      _ = partsOf (Piece.allFrom level (after.resume level (.stray offset))) := by
        rw [Piece.allFrom_of_next?_eq_some next]
        rfl
      _ = texts level rest := by rw [partsOf_allFrom, resumed]
  · rw [texts_of_notMem more, texts_of_notMem (by simp [free.notMem.1, more])]

/-- A group is read with what stands in front of its opening brace as its name. -/
theorem texts_opening (free : BraceFree pre) (rest : List Char) :
    texts level (pre ++ '{' :: rest) = (Text.trim pre, (Body.read 1 rest).text) ::
      texts level (level.resume (Body.read 1 rest).rest) := by
  obtain ⟨g, after, next, name, body, left⟩ :=
    Cursor.next?_opening (c := ⟨0, pre ++ '{' :: rest⟩) rfl free
  calc texts level (pre ++ '{' :: rest)
      = partsOf (Piece.allFrom level ⟨0, pre ++ '{' :: rest⟩) := rfl
    _ = g.parts :: partsOf (Piece.allFrom level (after.resume level (.group g))) := by
      rw [Piece.allFrom_of_next?_eq_some next]
      rfl
    _ = _ := by rw [partsOf_allFrom, Cursor.resume_rest, left, parts, name, body]

/-- A group whose body is closed. -/
theorem texts_group (free : BraceFree pre) {body : List Char} (inner : Body.Passes body)
    (rest : List Char) : texts level (pre ++ '{' :: (body ++ '}' :: rest)) =
      (Text.trim pre, body) :: texts level (level.resume rest) := by
  rw [texts_opening free, Body.read_passes inner]

end Group

end TriggerSheet
