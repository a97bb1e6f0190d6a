import TriggerSheet.Proofs.Sheet.Depth

/-!
# How far damage reaches

Each first part of a body opens at least as many braces as it closes, and the whole body opens as
many if a brace closes it. So a cursor in the body of a block finds no stray brace there, and of all
clauses the end of the sheet cuts off one at most: the last clause of the last block, and only if
this block is cut off too. The reader of a body counts the open braces, and never takes one away
where none is left.

## Main definitions

* `Text.Led`, `Text.Matched` — how the braces of a text are matched
* `Body.ending` — the reader of a body as a loop that could end by taking one from zero
* `Sheet.Confined` — what can be damaged in a sheet

## Main results

* `Body.count_lt_of_prefix`, `Body.count_of_closed` — the braces of a body
* `Body.ending_eq` — the loop ends where the body does
* `Cursor.next?_cases` — what a cursor can find
* `Piece.unclosed_of_mem_dropLast` — only the last group of a text can be cut off
* `Piece.allFrom_of_led` — in a led text no brace is stray
* `Sheet.confined` — the damage of every sheet is confined
-/

namespace TriggerSheet

open Text (BraceFree)

/-! ### Matched braces -/

namespace Text

variable {s front rest pre : List Char} {depth : ℕ}

/-- In no first part of a text more braces close than open. -/
def Led (s : List Char) : Prop := ∀ pre, pre <+: s → pre.count '}' ≤ pre.count '{'

/-- As many braces close as open. -/
def Matched (s : List Char) : Prop := s.count '}' = s.count '{'

theorem BraceFree.count (free : BraceFree s) : s.count '{' = 0 ∧ s.count '}' = 0 :=
  ⟨List.count_eq_zero.mpr free.notMem.1, List.count_eq_zero.mpr free.notMem.2⟩

theorem BraceFree.matched (free : BraceFree s) : Matched s := by
  rw [Matched, free.count.1, free.count.2]

/-- A brace that closes first closes nothing. -/
theorem not_led_closing (free : BraceFree pre) (rest : List Char) :
    ¬Led (pre ++ '}' :: rest) := by
  intro led
  have first := led (pre ++ ['}']) ⟨rest, by rw [List.append_assoc, List.singleton_append]⟩
  rw [List.count_append, List.count_append, free.count.1, free.count.2] at first
  exact absurd first (by decide)

/-- What follows a matched part is led if the whole text is, -/
theorem Led.behind (led : Led (front ++ rest)) (matched : Matched front) : Led rest := by
  intro pre isPrefix
  have longer := led (front ++ pre) ((List.prefix_append_right_inj front).mpr isPrefix)
  rw [List.count_append, List.count_append, matched] at longer
  exact Nat.le_of_add_le_add_left longer

/-- and matched if it is. -/
theorem Matched.behind (whole : Matched (front ++ rest)) (matched : Matched front) :
    Matched rest := by
  rw [Matched, List.count_append, List.count_append, matched] at whole
  exact Nat.add_left_cancel whole

/-- While a brace is open, the depth is counted without loss. -/
theorem depthStep_add_count (opened : 0 < depth) (c : Char) (s : List Char) :
    depthStep depth c + (c :: s).count '}' + s.count '{' =
      depth + (c :: s).count '{' + s.count '}' := by
  rw [depthStep]
  by_cases opens : c = '{'
  · subst opens
    rw [if_pos rfl, List.count_cons_self, List.count_cons_of_ne (by decide)]
    omega
  by_cases closes : c = '}'
  · subst closes
    rw [if_neg opens, if_pos rfl, List.count_cons_self, List.count_cons_of_ne (by decide)]
    omega
  · rw [if_neg opens, if_neg closes, List.count_cons_of_ne opens, List.count_cons_of_ne closes]
    omega

end Text

open Text (Matched Led)

/-! ### The braces of a body -/

namespace Body

variable {s : List Char} {depth : ℕ}

/-- Everywhere in a body a brace is open. -/
theorem count_lt_of_prefix (opened : 0 < depth) (s : List Char) :
    ∀ pre, pre <+: (read depth s).text → pre.count '}' < depth + pre.count '{' := by
  induction s generalizing depth with
  | nil =>
    intro pre isPrefix
    obtain rfl := List.prefix_nil.mp isPrefix
    exact opened
  | cons c s ih =>
    intro pre isPrefix
    rcases read_step opened c s with ⟨-, -, ends⟩ | ⟨-, opened', passed⟩
    · rw [ends] at isPrefix
      obtain rfl := List.prefix_nil.mp isPrefix
      exact opened
    · rw [passed] at isPrefix
      rcases List.prefix_cons_iff.mp isPrefix with rfl | ⟨tail, rfl, isPrefix'⟩
      · exact opened
      · have behind := ih opened' tail isPrefix'
        have step := Text.depthStep_add_count opened c tail
        omega

/-- The brace that closes a body closes the last one that is open. -/
theorem count_of_closed (opened : 0 < depth) (closed : (read depth s).unclosed = 0) :
    (read depth s).text.count '}' + 1 = depth + (read depth s).text.count '{' := by
  induction s generalizing depth with
  | nil => exact absurd closed (Nat.pos_iff_ne_zero.mp opened)
  | cons c s ih =>
    rcases read_step opened c s with ⟨-, rfl, ends⟩ | ⟨-, opened', passed⟩
    · rw [ends]
      rfl
    · rw [passed] at closed ⊢
      have behind := ih opened' closed
      have step := Text.depthStep_add_count opened c (read (Text.depthStep depth c) s).text
      have text (b : Body) : (b.push c).text = c :: b.text := rfl
      rw [text]
      omega

/-- A body is led, -/
theorem led_read (s : List Char) : Led (read 1 s).text := by
  intro pre isPrefix
  have ahead := count_lt_of_prefix Nat.one_pos s pre isPrefix
  omega

/-- and matched if it is closed. -/
theorem matched_read (closed : (read 1 s).unclosed = 0) : Matched (read 1 s).text := by
  have last := count_of_closed Nat.one_pos closed
  rw [Matched]
  omega

/-! ### The counter -/

/-- How a loop over the characters of a body ends. -/
inductive Ending where
  /-- At the brace that closes the body. -/
  | closed (text rest : List Char)
  /-- At the end of the text, with braces open. -/
  | cut (text : List Char) (depth : ℕ)
  /-- At a closing brace while the counter is zero. -/
  | underflow

/-- Puts a character in front of what was passed over. -/
def Ending.push (c : Char) : Ending → Ending
  | closed text rest => closed (c :: text) rest
  | cut text depth => cut (c :: text) depth
  | underflow => underflow

/-- The loop over the characters of a body, with a counter of open braces from which one can be
taken only if it is not zero. -/
def ending (depth : ℕ) : List Char → Ending
  | [] => .cut [] depth
  | c :: rest =>
    if c = '{' then (ending (depth + 1) rest).push c
    else if c = '}' then
      if depth = 0 then .underflow
      else if depth - 1 = 0 then .closed [] rest
      else (ending (depth - 1) rest).push c
    else (ending depth rest).push c

/-- How a body that was read says that the loop ended. -/
def asEnding (b : Body) : Ending :=
  if b.unclosed = 0 then .closed b.text b.rest else .cut b.text b.unclosed

theorem asEnding_push (c : Char) (b : Body) : (b.push c).asEnding = b.asEnding.push c := by
  by_cases closed : b.unclosed = 0
  · rw [asEnding, asEnding, if_pos closed]
    exact if_pos closed
  · rw [asEnding, asEnding, if_neg closed]
    exact if_neg closed

/-- The loop ends as the body says: with a brace open it never takes one from zero. -/
theorem ending_eq (opened : 0 < depth) (s : List Char) :
    ending depth s = (read depth s).asEnding := by
  induction s generalizing depth with
  | nil => exact (if_neg (Nat.pos_iff_ne_zero.mp opened)).symm
  | cons c s ih =>
    rw [ending, read]
    by_cases opens : c = '{'
    · rw [if_pos opens, if_pos opens, asEnding_push, ih (Nat.succ_pos depth)]
    by_cases closes : c = '}'
    · rw [if_neg opens, if_pos closes, if_neg opens, if_pos closes,
        if_neg (Nat.pos_iff_ne_zero.mp opened)]
      by_cases last : depth - 1 = 0
      · rw [if_pos last, if_pos last]
        rfl
      · rw [if_neg last, if_neg last, asEnding_push, ih (Nat.pos_of_ne_zero last)]
    · rw [if_neg opens, if_neg closes, if_neg opens, if_neg closes, asEnding_push, ih opened]

end Body

/-! ### What a cursor finds -/

/-- What is passed over behind a group has no braces. -/
theorem Level.exists_resume (level : Level) (s : List Char) :
    ∃ front, BraceFree front ∧ s = front ++ level.resume s := by
  cases level with
  | sheet => exact ⟨[], fun c mem => absurd mem List.not_mem_nil, rfl⟩
  | block =>
    have spaces : Text.Spaces (s.takeWhile Text.isSpace) :=
      List.all_eq_true.mp List.all_takeWhile
    have whole := List.takeWhile_append_dropWhile (p := Text.isSpace) (l := s)
    simp only [resume]
    split
    next rest semicolon =>
      refine ⟨s.takeWhile Text.isSpace ++ [';'], ?_, ?_⟩
      · exact Text.braceFree_append.mpr ⟨spaces.braceFree, by decide⟩
      · rw [List.append_assoc, List.singleton_append, ← semicolon, whole]
    next => exact ⟨_, spaces.braceFree, whole.symm⟩

/-- A cursor finds the next brace, which closes nothing or opens a group. -/
theorem Cursor.next?_cases {c after : Cursor} {piece : Piece}
    (read : c.next? = some (piece, after)) :
    (∃ offset pre, piece = .stray offset ∧ BraceFree pre ∧ c.rest = pre ++ '}' :: after.rest) ∨
      ∃ g pre inside, piece = .group g ∧ BraceFree pre ∧ c.rest = pre ++ '{' :: inside ∧
        g.body = (Body.read 1 inside).text ∧ g.unclosed = (Body.read 1 inside).unclosed ∧
        after.rest = (Body.read 1 inside).rest := by
  rcases Text.brace_cases c.rest with free | ⟨pre, rest, free, text | text⟩
  · rw [next?_of_notMem free.notMem.1] at read
    cases read
  · by_cases more : '{' ∈ rest
    · obtain ⟨offset, after', next, left⟩ := next?_closing text free more
      rw [next] at read
      obtain ⟨rfl, rfl⟩ := Prod.mk.inj (Option.some.inj read)
      exact .inl ⟨offset, pre, rfl, free, left ▸ text⟩
    · have flat : '{' ∉ c.rest := by simp [text, free.notMem.1, more]
      rw [next?_of_notMem flat] at read
      cases read
  · rw [next?_opening_eq text free] at read
    obtain ⟨rfl, rfl⟩ := Prod.mk.inj (Option.some.inj read)
    exact .inr ⟨_, pre, rest, rfl, free, text, rfl, rfl, rfl⟩

/-- The body of a group that a cursor reads is what the loop passes over behind the brace, from a
counter of one on. -/
theorem Cursor.ending_of_next? {c after : Cursor} {g : Group}
    (read : c.next? = some (.group g, after)) :
    ∃ pre inside, BraceFree pre ∧ c.rest = pre ++ '{' :: inside ∧
      Body.ending 1 inside = (Body.mk g.body g.unclosed after.rest).asEnding := by
  rcases next?_cases read with
    ⟨_, _, is, -⟩ | ⟨h, pre, inside, is, free, text, body, depth, left⟩
  · cases is
  · obtain rfl := Piece.group.inj is
    exact ⟨pre, inside, free, text, by rw [Body.ending_eq Nat.one_pos, body, depth, left]⟩

namespace Piece

variable {level : Level} {c after : Cursor} {g : Group} {p : Piece}

theorem allFrom_of_rest_eq_nil (ends : c.rest = []) : allFrom level c = [] :=
  allFrom_of_next?_eq_none (Cursor.next?_of_notMem (ends ▸ List.not_mem_nil))

/-- Behind a group that the end of the text cuts off nothing is left. -/
theorem allFrom_resume_of_unclosed (read : c.next? = some (.group g, after))
    (unclosed : g.unclosed ≠ 0) : allFrom level (after.resume level (.group g)) = [] := by
  rcases Cursor.next?_cases read with ⟨_, _, is, -⟩ | ⟨_, pre, inside, is, -, -, -, depth, left⟩
  · cases is
  · obtain rfl := Piece.group.inj is
    rw [depth] at unclosed
    rw [(Body.read_of_unclosed Nat.one_pos unclosed).2] at left
    refine allFrom_of_rest_eq_nil ?_
    rw [Cursor.resume_rest, left]
    cases level <;> rfl

/-- Whatever is found was found by a cursor. -/
theorem exists_next?_of_mem (mem : p ∈ allFrom level c) :
    ∃ c' after, Cursor.next? c' = some (p, after) := by
  induction c using allFrom.induct level with
  | case1 c none =>
    rw [allFrom_of_next?_eq_none none] at mem
    exact absurd mem List.not_mem_nil
  | case2 c piece after next ih =>
    rw [allFrom_of_next?_eq_some next] at mem
    rcases List.mem_cons.mp mem with rfl | mem
    · exact ⟨c, after, next⟩
    · exact ih mem

/-- Only the last group can be cut off by the end of the text. -/
theorem unclosed_of_mem_dropLast (level : Level) (c : Cursor) :
    ∀ g ∈ ((allFrom level c).filterMap group?).dropLast, g.unclosed = 0 := by
  induction c using allFrom.induct level with
  | case1 c none =>
    rw [allFrom_of_next?_eq_none none]
    exact fun g mem => absurd mem List.not_mem_nil
  | case2 c piece after next ih =>
    rw [allFrom_of_next?_eq_some next]
    cases piece with
    | stray offset => exact ih
    | group h =>
      rw [List.filterMap_cons_some (rfl : group? (.group h) = some h)]
      intro g mem
      cases others : (allFrom level (after.resume level (.group h))).filterMap group? with
      | nil =>
        rw [others] at mem
        exact absurd mem List.not_mem_nil
      | cons k more =>
        rw [others, List.dropLast_cons_cons] at mem
        rcases List.mem_cons.mp mem with rfl | mem
        · -- Otherwise nothing would be left behind it.
          by_contra unclosed
          rw [allFrom_resume_of_unclosed next unclosed] at others
          cases others
        · exact ih g (others ▸ mem)

/-- In a led text no brace is stray, and in a matched one no group is cut off. -/
theorem allFrom_of_led (c : Cursor) (led : Led c.rest) :
    ∀ p ∈ allFrom .block c, ∃ g, p = .group g ∧ (Matched c.rest → g.unclosed = 0) := by
  induction c using allFrom.induct .block with
  | case1 c none =>
    rw [allFrom_of_next?_eq_none none]
    exact fun p mem => absurd mem List.not_mem_nil
  | case2 c piece after next ih =>
    rw [allFrom_of_next?_eq_some next]
    rcases Cursor.next?_cases next with
      ⟨offset, pre, rfl, free, text⟩ | ⟨g, pre, inside, rfl, free, text, body, depth, left⟩
    · exact absurd (text ▸ led) (Text.not_led_closing free _)
    by_cases closed : g.unclosed = 0
    · -- The text in front of the cursor stays matched: a name, a body in braces, and a terminator.
      have closed' : (Body.read 1 inside).unclosed = 0 := depth ▸ closed
      obtain ⟨front, free', behind⟩ := Level.block.exists_resume after.rest
      have passed : c.rest = (pre ++ '{' :: (g.body ++ '}' :: front)) ++
          (after.resume .block (.group g)).rest := by
        rw [Cursor.resume_rest, text, (Body.read_of_closed Nat.one_pos closed').1, ← body, ← left]
        conv_lhs => rw [behind]
        simp
      have matched : Matched (pre ++ '{' :: (g.body ++ '}' :: front)) := by
        have inner := Body.matched_read closed'
        rw [← body, Matched] at inner
        simp [Matched, free.count, free'.count, inner]
      rw [passed] at led ⊢
      rintro p (_ | ⟨_, mem⟩)
      · exact ⟨g, rfl, fun _ => closed⟩
      · obtain ⟨h, is, whole⟩ := ih (led.behind matched) p mem
        exact ⟨h, is, fun all => whole (all.behind matched)⟩
    · rw [allFrom_resume_of_unclosed next closed]
      rintro p (_ | ⟨_, mem⟩)
      · refine ⟨g, rfl, fun matched => ?_⟩
        -- The brace that opens the group would have to be closed in its body.
        rw [depth] at closed
        have more := Body.count_lt_of_prefix Nat.one_pos inside _ List.prefix_rfl
        rw [(Body.read_of_unclosed Nat.one_pos closed).1] at more
        rw [text] at matched
        simp [Matched, free.count] at matched
        omega
      · exact absurd mem List.not_mem_nil

end Piece

/-! ### What is noted -/

/-- A note that the end of a text cuts off a body. -/
def Note.isUnterminated : Note → Bool
  | unterminated _ _ => true
  | _ => false

namespace Group

/-- What is noted of the last of some groups, with `inner` for what is noted of its body. -/
def notesOfLast (inner : Group → List Note) (groups : List Group) : List Note :=
  groups.getLast?.toList.flatMap fun g => g.notes ++ inner g

theorem notes_of_closed {g : Group} (closed : g.unclosed = 0) : g.notes = [] := if_pos closed

theorem filter_notes (g : Group) : g.notes.filter Note.isUnterminated = g.notes := by
  rw [notes]
  split <;> rfl

/-- Where nothing is noted of the others, all is noted of the last. -/
theorem flatMap_notes {inner : Group → List Note} {groups : List Group}
    (closed : ∀ g ∈ groups.dropLast, g.unclosed = 0) (none : ∀ g ∈ groups.dropLast, inner g = []) :
    (groups.flatMap fun g => g.notes ++ inner g) = notesOfLast inner groups := by
  rcases List.eq_nil_or_concat groups with rfl | ⟨others, last, rfl⟩
  · rfl
  · rw [List.concat_eq_append, List.dropLast_concat] at closed none
    have silent : (others.flatMap fun g => g.notes ++ inner g) = [] := by
      refine List.flatMap_eq_nil_iff.mpr fun g mem => ?_
      rw [notes_of_closed (closed g mem), none g mem, List.append_nil]
    rw [List.concat_eq_append, List.flatMap_append, silent, notesOfLast, List.getLast?_concat]
    rfl

end Group

namespace Piece

/-- Of some pieces, the groups that are cut off are noted. -/
theorem filter_notes (inner : Group → List Note) (pieces : List Piece) :
    (pieces.flatMap (notes inner)).filter Note.isUnterminated =
      (pieces.filterMap group?).flatMap fun g =>
        g.notes ++ (inner g).filter Note.isUnterminated := by
  induction pieces with
  | nil => rfl
  | cons piece pieces ih =>
    rw [List.flatMap_cons, List.filter_append, ih]
    cases piece with
    | stray offset => rfl
    | group g =>
      rw [List.filterMap_cons_some (rfl : group? (.group g) = some g), List.flatMap_cons, notes,
        List.filter_append, g.filter_notes]

/-- If no stray brace is noted of their bodies, those among the pieces are. -/
theorem filterMap_strayOffset?_notes {inner : Group → List Note} {pieces : List Piece}
    (none : ∀ g, .group g ∈ pieces → (inner g).filterMap Note.strayOffset? = []) :
    (pieces.flatMap (notes inner)).filterMap Note.strayOffset? = strayOffsets pieces := by
  induction pieces with
  | nil => rfl
  | cons piece pieces ih =>
    have rest := ih fun g mem => none g (List.mem_cons_of_mem _ mem)
    rw [List.flatMap_cons, List.filterMap_append, rest]
    cases piece with
    | stray offset => rfl
    | group g =>
      have own : g.notes.filterMap Note.strayOffset? = [] := by
        rw [Group.notes]
        split <;> rfl
      rw [notes, List.filterMap_append, own, none g (List.mem_cons_self ..),
        strayOffsets_group]
      rfl

theorem strayOffsets_of_forall_group {pieces : List Piece}
    (groups : ∀ p ∈ pieces, ∃ g, p = .group g) : strayOffsets pieces = [] := by
  induction pieces with
  | nil => rfl
  | cons piece pieces ih =>
    obtain ⟨g, rfl⟩ := groups piece (List.mem_cons_self ..)
    rw [strayOffsets_group]
    exact ih fun p mem => groups p (List.mem_cons_of_mem _ mem)

end Piece

/-! ### The clauses of a block -/

namespace Group

variable {level : Level} {s : List Char} {g : Group}

theorem mem_all_iff : g ∈ all level s ↔ .group g ∈ Piece.all level s := by
  constructor
  · intro mem
    obtain ⟨piece, found, is⟩ := List.mem_filterMap.mp mem
    cases piece with
    | stray offset => cases is
    | group h => exact Option.some.inj is ▸ found
  · exact fun mem => List.mem_filterMap.mpr ⟨_, mem, rfl⟩

/-- A group of a sheet is a body that was read behind a brace. -/
theorem exists_inside (mem : g ∈ all level s) :
    ∃ inside, g.body = (Body.read 1 inside).text ∧ g.unclosed = (Body.read 1 inside).unclosed := by
  obtain ⟨c, after, next⟩ := Piece.exists_next?_of_mem (mem_all_iff.mp mem)
  rcases Cursor.next?_cases next with ⟨_, _, is, -⟩ | ⟨h, pre, inside, is, -, -, body, depth, -⟩
  · cases is
  · obtain rfl := Piece.group.inj is
    exact ⟨inside, body, depth⟩

/-- In the body of a block no brace is stray, and a clause is cut off only if the block is. -/
theorem clauses_confined (mem : g ∈ all .sheet s) :
    ∀ p ∈ Piece.all .block g.body, ∃ h, p = .group h ∧ (g.unclosed = 0 → h.unclosed = 0) := by
  obtain ⟨inside, body, depth⟩ := exists_inside mem
  rw [body, depth]
  intro p found
  obtain ⟨h, is, closed⟩ := Piece.allFrom_of_led _ (Body.led_read inside) p found
  exact ⟨h, is, fun all => closed (Body.matched_read all)⟩

theorem unclosed_of_mem_clauses (mem : g ∈ all .sheet s) (closed : g.unclosed = 0) :
    ∀ h ∈ all .block g.body, h.unclosed = 0 := by
  intro h found
  obtain ⟨k, is, whole⟩ := clauses_confined mem _ (mem_all_iff.mp found)
  obtain rfl := Piece.group.inj is
  exact whole closed

/-- While the body of a block is read, no stray brace is noted, -/
theorem filterMap_strayOffset?_notes (mem : g ∈ all .sheet s) :
    (Block.notes g).filterMap Note.strayOffset? = [] := by
  have named (h : Group) : (Clause.notes h).filterMap Note.strayOffset? = [] := by
    rw [Clause.notes]
    split <;> rfl
  rw [Block.notes, Piece.filterMap_strayOffset?_notes fun h _ => named h]
  refine Piece.strayOffsets_of_forall_group fun p found => ?_
  obtain ⟨h, is, -⟩ := clauses_confined mem p found
  exact ⟨h, is⟩

/-- and its last clause is noted if it is cut off. -/
theorem filter_notes_block (g : Group) : (Block.notes g).filter Note.isUnterminated =
    notesOfLast (fun _ => []) (all .block g.body) := by
  have named (h : Group) : (Clause.notes h).filter Note.isUnterminated = [] := by
    rw [Clause.notes]
    split <;> rfl
  simp only [Block.notes, Piece.filter_notes, named]
  exact flatMap_notes (Piece.unclosed_of_mem_dropLast .block ⟨0, g.body⟩) fun _ _ => rfl

end Group

/-! ### Sheets -/

namespace Sheet

variable {source : String} {code : List Char}

/-- Damage is found between the blocks of a sheet, and in the last clause of the last one at
most. -/
structure Confined (code : List Char) : Prop where
  /-- The end of the text cuts off the last block at most. -/
  blocks : ∀ g ∈ (Group.all .sheet code).dropLast, g.unclosed = 0
  /-- In the body of a block no brace is stray; -/
  clauses_stray : ∀ g ∈ Group.all .sheet code, ∀ offset, .stray offset ∉ Piece.all .block g.body
  /-- its end cuts off the last clause at most, -/
  clauses : ∀ g ∈ Group.all .sheet code, ∀ h ∈ (Group.all .block g.body).dropLast, h.unclosed = 0
  /-- and only if the block is cut off. -/
  clauses_cut : ∀ g ∈ Group.all .sheet code, ∀ h ∈ Group.all .block g.body,
    h.unclosed ≠ 0 → g.unclosed ≠ 0

theorem confined_code (code : List Char) : Confined code := by
  refine
    { blocks := Piece.unclosed_of_mem_dropLast .sheet ⟨0, code⟩
      clauses_stray := fun g mem offset found => ?_
      clauses := fun g _ => Piece.unclosed_of_mem_dropLast .block ⟨0, g.body⟩
      clauses_cut := fun g mem h found cut closed => ?_ }
  · obtain ⟨h, is, -⟩ := Group.clauses_confined mem _ found
    cases is
  · exact cut (Group.unclosed_of_mem_clauses mem closed h found)

/-- All stray braces that are noted stand between the blocks. -/
theorem filterMap_strayOffset?_notes (source : String) :
    (notes source).filterMap Note.strayOffset? =
      Piece.strayOffsets (Piece.all .sheet (Comment.strip source.toList)) := by
  rw [notes, List.filterMap_append, Piece.filterMap_strayOffset?_notes fun g mem =>
    Group.filterMap_strayOffset?_notes (Group.mem_all_iff.mpr mem)]
  exact List.append_nil _

/-- All bodies that are noted to be cut off are that of the last block and that of its last
clause. -/
theorem filter_isUnterminated_notes (source : String) :
    (notes source).filter Note.isUnterminated =
      Group.notesOfLast (fun g => Group.notesOfLast (fun _ => []) (Group.all .block g.body))
        (Group.all .sheet (Comment.strip source.toList)) := by
  have confined := confined_code (Comment.strip source.toList)
  rw [notes, List.filter_append, Piece.filter_notes]
  simp only [Group.filter_notes_block]
  refine (List.append_nil _).trans (Group.flatMap_notes confined.blocks fun g mem => ?_)
  -- In a closed block all clauses are closed.
  have closed := Group.unclosed_of_mem_clauses (List.dropLast_subset _ mem)
    (confined.blocks g mem)
  rw [← Group.flatMap_notes (fun h found => closed h (List.dropLast_subset _ found))
    fun _ _ => rfl]
  refine List.flatMap_eq_nil_iff.mpr fun h found => ?_
  rw [Group.notes_of_closed (closed h found), List.append_nil]

/-- The damage of every sheet is confined, the notes of it are those of this damage, and the counter
of open braces is never taken below zero. -/
theorem confined (source : String) :
    Confined (Comment.strip source.toList) ∧
      (notes source).filterMap Note.strayOffset? =
        Piece.strayOffsets (Piece.all .sheet (Comment.strip source.toList)) ∧
      (notes source).filter Note.isUnterminated =
        Group.notesOfLast (fun g => Group.notesOfLast (fun _ => []) (Group.all .block g.body))
          (Group.all .sheet (Comment.strip source.toList)) ∧
      ∀ (c after : Cursor) (g : Group), c.next? = some (.group g, after) →
        ∃ pre inside, BraceFree pre ∧ c.rest = pre ++ '{' :: inside ∧
          Body.ending 1 inside = (Body.mk g.body g.unclosed after.rest).asEnding :=
  ⟨confined_code _, filterMap_strayOffset?_notes source, filter_isUnterminated_notes source,
    fun _ _ _ read => Cursor.ending_of_next? read⟩

/-- The end of the text cuts off a block and its clause. -/
theorem confined_openPanel :
    Confined (Comment.strip openPanel.toList) ∧
      (notes openPanel).filter Note.isUnterminated = [.unterminated 9 2, .unterminated 8 1] ∧
      ∃ pre inside, BraceFree pre ∧
        " panel \x7b click \x7b text: fall; ".toList = pre ++ '{' :: inside ∧
        Body.ending 1 inside = .cut " click \x7b text: fall; ".toList 2 := by
  have noted : (notes openPanel).filter Note.isUnterminated =
      [.unterminated 9 2, .unterminated 8 1] := by decide +kernel
  have read : Cursor.next? ⟨1, " panel \x7b click \x7b text: fall; ".toList⟩ =
      some (.group ⟨"panel".toList, " click \x7b text: fall; ".toList, 9, 2⟩, ⟨30, []⟩) := rfl
  obtain ⟨bounds, -, -, counted⟩ := confined openPanel
  exact ⟨bounds, noted, counted _ _ _ read⟩

end Sheet

end TriggerSheet
