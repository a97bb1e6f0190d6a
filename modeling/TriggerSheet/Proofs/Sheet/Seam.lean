import TriggerSheet.Proofs.Sheet.Reading

/-!
# Sheets behind each other

Damage stays local. A text that leaves no brace open, and whose last brace is followed by blanks
alone, is settled: whatever strays it holds, what follows it is read as if it stood alone. So a
settled sheet and any other sheet, however damaged, give the blocks of the one and then the blocks
of the other.

## Main definitions

* `Text.depthFrom` — how many braces a text leaves open, where a stray closing brace closes nothing
* `Text.Settled` — a text leaves no brace open and ends in blanks

## Main results

* `Body.read_settles` — a body in a settled text is closed, and what follows it is settled
* `Group.texts_append` — the groups of a settled text, and those of what follows it
* `Sheet.parse_append` — the same for the blocks of sheets
-/

namespace TriggerSheet

namespace Text

/-- The open braces behind a character; a closing brace that closes nothing changes nothing. -/
def depthStep (depth : ℕ) (c : Char) : ℕ :=
  if c = '{' then depth + 1 else if c = '}' then depth - 1 else depth

/-- The braces that are open behind a text, where `depth` of them are open in front of it. -/
def depthFrom (depth : ℕ) (s : List Char) : ℕ := s.foldl depthStep depth

/-- What stands behind the last brace of a text, and the whole text if it has none. -/
def lastPart (s : List Char) : List Char := s.rtakeWhile fun c => !isBrace c

/-- A text leaves no brace open, and nothing but blanks stands behind its last brace. -/
structure Settled (s : List Char) : Prop where
  depth : depthFrom 0 s = 0
  blank : ∀ c ∈ lastPart s, isBlank c = true

variable {s t pre rest : List Char} {depth : ℕ}

instance (s : List Char) : Decidable (Settled s) :=
  decidable_of_iff (depthFrom 0 s = 0 ∧ (lastPart s).all isBlank = true)
    ⟨fun both => ⟨both.1, List.all_eq_true.mp both.2⟩,
      fun settled => ⟨settled.depth, List.all_eq_true.mpr settled.blank⟩⟩

theorem depthFrom_append (depth : ℕ) (s t : List Char) :
    depthFrom depth (s ++ t) = depthFrom (depthFrom depth s) t := List.foldl_append ..

theorem depthFrom_of_braceFree (free : BraceFree s) (depth : ℕ) : depthFrom depth s = depth := by
  induction s with
  | nil => rfl
  | cons c s ih =>
    obtain ⟨⟨opens, closes⟩, free⟩ := braceFree_cons.mp free
    rw [depthFrom, List.foldl_cons, depthStep, if_neg opens, if_neg closes]
    exact ih free

theorem lastPart_of_braceFree (free : BraceFree s) : lastPart s = s :=
  List.rtakeWhile_eq_self_iff.mpr fun c mem => by rw [free c mem]; rfl

/-- What stands behind the last brace does not depend on what stands in front of it. -/
theorem lastPart_subset (suffix : t <:+ s) : lastPart t ⊆ lastPart s := by
  obtain ⟨pre, rfl⟩ := suffix
  intro c mem
  simp only [lastPart, List.rtakeWhile, List.reverse_append, List.takeWhile_append,
    List.mem_reverse] at mem ⊢
  split
  · exact List.mem_append_left _ ((List.takeWhile_prefix _).subset mem)
  · exact mem

/-- The end of a settled text is settled, if no brace is open in front of it. -/
theorem Settled.of_suffix (settled : Settled s) (suffix : t <:+ s) (flat : depthFrom 0 t = 0) :
    Settled t :=
  ⟨flat, fun c mem => settled.blank c (lastPart_subset suffix mem)⟩

theorem Settled.isBlank (settled : Settled s) (free : BraceFree s) : ∀ c ∈ s, isBlank c = true := by
  have blank := settled.blank
  rwa [lastPart_of_braceFree free] at blank

/-- What follows a stray brace in a settled text is settled. -/
theorem Settled.behind_stray (settled : Settled (pre ++ '}' :: rest)) (free : BraceFree pre) :
    Settled rest := by
  refine settled.of_suffix ((List.suffix_cons ..).trans (List.suffix_append ..)) ?_
  have depth := settled.depth
  rwa [depthFrom_append, depthFrom_of_braceFree free] at depth

end Text

open Text (BraceFree Settled depthFrom)

variable {s t pre rest : List Char} {depth : ℕ}

namespace Body

/-- What follows a body is the end of the text. -/
theorem rest_read_suffix (opened : 0 < depth) (s : List Char) : (read depth s).rest <:+ s := by
  obtain ⟨closing, all⟩ := read_eq_append opened s
  exact ⟨_, all.symm⟩

/-- Where all braces are closed in the end, a body is closed, and none is left open behind it. -/
theorem read_closes (opened : 0 < depth) (flat : depthFrom depth s = 0) :
    (read depth s).unclosed = 0 ∧ depthFrom 0 (read depth s).rest = 0 := by
  induction s generalizing depth with
  | nil => exact absurd flat (Nat.pos_iff_ne_zero.mp opened)
  | cons c s ih =>
    rw [depthFrom, List.foldl_cons, Text.depthStep] at flat
    by_cases opens : c = '{'
    · rw [if_pos opens] at flat
      rw [read, if_pos opens]
      exact ih (Nat.succ_pos _) flat
    by_cases closes : c = '}'
    · rw [if_neg opens, if_pos closes] at flat
      rw [read, if_neg opens, if_pos closes]
      by_cases last : depth - 1 = 0
      · rw [last] at flat
        rw [if_pos last]
        exact ⟨rfl, flat⟩
      · rw [if_neg last]
        exact ih (Nat.pos_of_ne_zero last) flat
    · rw [if_neg opens, if_neg closes] at flat
      rw [read, if_neg opens, if_neg closes]
      exact ih opened flat

/-- A body in a settled text is closed, and what follows it is settled. -/
theorem read_settles (settled : Settled (pre ++ '{' :: rest)) (free : BraceFree pre) :
    (read 1 rest).unclosed = 0 ∧ Settled (read 1 rest).rest := by
  have depth := settled.depth
  rw [Text.depthFrom_append, Text.depthFrom_of_braceFree free] at depth
  obtain ⟨closed, flat⟩ := read_closes Nat.one_pos depth
  have behind : (read 1 rest).rest <:+ pre ++ '{' :: rest :=
    ((rest_read_suffix Nat.one_pos rest).trans (List.suffix_cons ..)).trans (List.suffix_append ..)
  exact ⟨closed, settled.of_suffix behind flat⟩

end Body

/-! ### The groups of a text behind a settled one -/

namespace Group

/-- Blanks in front of the groups of a text get into no name. -/
theorem texts_blank_append (blank : ∀ c ∈ s, Text.isBlank c = true) (level : Level)
    (t : List Char) : texts level (s ++ t) = texts level t := by
  have free := Text.braceFree_of_blank blank
  rcases Text.brace_cases t with none | ⟨pre, rest, before, rfl | rfl⟩
  · rw [texts_of_notMem none.notMem.1,
      texts_of_notMem (Text.braceFree_append.mpr ⟨free, none⟩).notMem.1]
  all_goals have before' := Text.braceFree_append.mpr ⟨free, before⟩
  · rw [← List.append_assoc, texts_closing before', texts_closing before]
  · have trimmed : Text.trim (s ++ pre) = Text.trim pre := by
      rw [Text.trim, Text.trimStart_append_of_blank blank, Text.trim]
    rw [← List.append_assoc, texts_opening before', texts_opening before, trimmed]

/-- The groups of a settled text, and then those of what follows it. -/
theorem texts_append (settled : Settled s) (t : List Char) :
    texts .sheet (s ++ t) = texts .sheet s ++ texts .sheet t := by
  induction s using Text.brace_induction with
  | free s free =>
    rw [texts_blank_append (settled.isBlank free), texts_of_notMem free.notMem.1,
      List.nil_append]
  | closing pre rest free ih =>
    rw [List.append_assoc, List.cons_append, texts_closing free, texts_closing free]
    exact ih (settled.behind_stray free)
  | opening pre rest free ih =>
    obtain ⟨closed, settled'⟩ := Body.read_settles settled free
    rw [List.append_assoc, List.cons_append, texts_opening free, texts_opening free,
      Body.read_append_of_closed Nat.one_pos closed]
    exact congrArg (_ :: ·) (ih _ (Body.length_rest_read_le 1 rest) settled')

end Group

namespace Sheet

theorem blocksOf_append (settled : Settled s) (t : List Char) :
    blocksOf (s ++ t) = blocksOf s ++ blocksOf t := by
  rw [blocksOf_eq, blocksOf_eq, blocksOf_eq, Group.texts_append settled, List.map_append]

/-- A settled sheet and any other give the blocks of the one and then those of the other, unless a
comment reaches over the seam. -/
theorem parse_append {first second : String}
    (apart : Comment.strip (first ++ second).toList =
      Comment.strip first.toList ++ Comment.strip second.toList)
    (settled : Settled (Comment.strip first.toList)) :
    parse (first ++ second) = parse first ++ parse second := by
  rw [parse, apart, blocksOf_append settled, parse, parse]

/-- A block among stray braces, with a comment and an ideographic space behind it. -/
def strayButton : String := "\x7d a \x7d button \x7b click \x7b \x7d \x7d /**/ \x7d\n\x7d\u3000"

/-- A stray brace and a block whose clause is never closed. -/
def openPanel : String := "\x7d panel \x7b click \x7b text: fall; "

/-- Damage on both sides of the seam. -/
theorem parse_strayButton_openPanel :
    Comment.strip (strayButton ++ openPanel).toList =
        Comment.strip strayButton.toList ++ Comment.strip openPanel.toList ∧
      Settled (Comment.strip strayButton.toList) ∧
      parse (strayButton ++ openPanel) = parse strayButton ++ parse openPanel :=
  have apart : Comment.strip (strayButton ++ openPanel).toList =
      Comment.strip strayButton.toList ++ Comment.strip openPanel.toList := by decide +kernel
  have settled : Settled (Comment.strip strayButton.toList) := by decide +kernel
  ⟨apart, settled, parse_append apart settled⟩

end Sheet

end TriggerSheet
