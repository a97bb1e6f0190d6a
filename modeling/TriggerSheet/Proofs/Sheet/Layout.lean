import TriggerSheet.Proofs.Sheet.Stripping
import TriggerSheet.Proofs.Sheet.Words

/-!
# Laying out a sheet

A sheet is written as a row of tokens: its words, the braces of its groups, a colon and a semicolon
for each action, and a semicolon behind a clause where the writer puts one. The tokens may stand as
far apart as one likes, with space and comments before, between and behind them: what is read is
the sheet that was written. One thing can go wrong. Behind a clause without a semicolon, a name that
starts with one loses it.

## Main definitions

* `Clause.Written`, `Block.Written` — a clause and a block with the choice of semicolons
* `Sheet.tokens` — the tokens of a written sheet
* `Laid` — tokens with gaps before, between and behind them
* `Clause.found` — what is read of written clauses
* `Block.Plain` — the words of a block are read as they are written

## Main results

* `Laid.exists_stripsTo` — comments between tokens come to space
* `Clause.readAll_laid`, `Sheet.blocksOf_laid` — reading tokens with space between them
* `Sheet.parse_laid` — reading any layout of plain blocks
-/

namespace TriggerSheet

open Text (BraceFree Spaces braceFree_append)

/-! ### Tokens -/

/-- The tokens of an action. -/
def Action.tokens (a : Action) : List (List Char) :=
  [a.property.toList, [':'], a.value.toList, [';']]

/-- A clause as it is written. -/
structure Clause.Written where
  clause : Clause
  /-- Whether a semicolon stands behind the clause. -/
  ended : Bool

/-- The tokens of a written clause. -/
def Clause.Written.tokens (w : Clause.Written) : List (List Char) :=
  w.clause.name.toList :: ['{'] :: (w.clause.actions.flatMap Action.tokens ++
    ['}'] :: if w.ended then [[';']] else [])

/-- A block as it is written. -/
structure Block.Written where
  selector : String
  clauses : List Clause.Written

/-- The block that is written. -/
def Block.Written.block (w : Block.Written) : Block := ⟨w.selector, w.clauses.map (·.clause)⟩

/-- The tokens of a written block. -/
def Block.Written.tokens (w : Block.Written) : List (List Char) :=
  w.selector.toList :: ['{'] :: (w.clauses.flatMap Clause.Written.tokens ++ [['}']])

/-- The tokens of a written sheet. -/
def Sheet.tokens (sheet : List Block.Written) : List (List Char) := sheet.flatMap (·.tokens)

/-- Tokens with gaps before, between and behind them. -/
inductive Laid (gap : List Char → Prop) : List (List Char) → List Char → Prop
  | nil {g : List Char} (last : gap g) : Laid gap [] g
  | cons {g token s : List Char} {tokens : List (List Char)} (first : gap g)
      (rest : Laid gap tokens s) : Laid gap (token :: tokens) (g ++ token ++ s)

namespace Laid

variable {gap : List Char → Prop} {s token : List Char} {tokens tokens' : List (List Char)}

/-- A token parts a layout in two. -/
theorem split (laid : Laid gap (tokens ++ token :: tokens') s) :
    ∃ before after, s = before ++ token ++ after ∧
      Laid gap tokens before ∧ Laid gap tokens' after := by
  induction tokens generalizing s with
  | nil =>
    cases laid with
    | cons first rest => exact ⟨_, _, rfl, .nil first, rest⟩
  | cons token tokens ih =>
    cases laid with
    | cons first rest =>
      obtain ⟨before, after, rfl, laid, laid'⟩ := ih rest
      exact ⟨_, after, by simp only [List.append_assoc], .cons first laid, laid'⟩

/-- Comments between tokens come to space. -/
theorem exists_stripsTo (slashes : ∀ token ∈ tokens, '/' ∉ token)
    (laid : Laid Comment.Gap tokens s) : ∃ t, Laid Spaces tokens t ∧ Comment.StripsTo s t := by
  induction laid with
  | nil last =>
    obtain ⟨t, spaces, strips⟩ := last.stripsTo
    exact ⟨t, .nil spaces, strips⟩
  | cons first _ ih =>
    obtain ⟨slash, slashes⟩ := List.forall_mem_cons.mp slashes
    obtain ⟨g, spaces, strips⟩ := first.stripsTo
    obtain ⟨t, laid, strips'⟩ := ih slashes
    exact ⟨_, .cons spaces laid, (strips.append (Comment.stripsTo_of_notMem slash)).append strips'⟩

theorem braceFree (free : ∀ token ∈ tokens, BraceFree token) (laid : Laid Spaces tokens s) :
    BraceFree s := by
  induction laid with
  | nil last => exact last.braceFree
  | cons first _ ih =>
    obtain ⟨here, free⟩ := List.forall_mem_cons.mp free
    exact braceFree_append.mpr ⟨braceFree_append.mpr ⟨first.braceFree, here⟩, ih free⟩

end Laid

/-! ### Actions -/

namespace Action

variable {a : Action} {actions : List Action} {s : List Char}

theorem WellFormed.braceFree_tokens (wellFormed : a.WellFormed) :
    ∀ token ∈ a.tokens, BraceFree token := by
  have property : BraceFree a.property.toList := by
    intro c mem
    have letter := wellFormed.property_letters c mem
    refine Bool.eq_false_iff.mpr fun brace => ?_
    rcases (by simpa [Text.isBrace] using brace : c = '{' ∨ c = '}') with rfl | rfl <;>
      exact absurd letter (by decide)
  have value : BraceFree a.value.toList := by
    intro c mem
    have plain := wellFormed.value_chars c mem
    simp only [isValueChar, Bool.and_eq_true, bne_iff_ne] at plain
    simp [Text.isBrace, plain]
  simp only [tokens, List.forall_mem_cons]
  exact ⟨property, by decide, value, by decide, fun token mem => absurd mem List.not_mem_nil⟩

theorem braceFree_of_laid (wellFormed : ∀ a ∈ actions, a.WellFormed)
    (laid : Laid Spaces (actions.flatMap tokens) s) : BraceFree s := by
  refine laid.braceFree fun token mem => ?_
  obtain ⟨a, mem, token'⟩ := List.mem_flatMap.mp mem
  exact (wellFormed a mem).braceFree_tokens token token'

/-- Actions with space between their tokens are read as they are. -/
theorem readAll_laid (wellFormed : ∀ a ∈ actions, a.WellFormed)
    (laid : Laid Spaces (actions.flatMap tokens) s) : readAll s = actions := by
  induction actions generalizing s with
  | nil =>
    cases laid with
    | nil last =>
      have only := readAll_spaces last []
      rwa [List.append_nil, readAll_nil] at only
  | cons a actions ih =>
    obtain ⟨here, wellFormed⟩ := List.forall_mem_cons.mp wellFormed
    rcases laid with _ | ⟨before, _ | ⟨colon, _ | ⟨value, _ | ⟨after, laid⟩⟩⟩⟩
    have first := readAll_action here before colon value after
    simp only [List.append_assoc, List.cons_append, List.nil_append] at first ⊢
    rw [first, ih wellFormed laid]

end Action

/-! ### Clauses -/

namespace Clause

variable {w : Clause.Written} {ws : List Clause.Written} {s : List Char}

/-- The clause of a name and actions, unless the name is empty. -/
def named? (name : List Char) (actions : List Action) : Option Clause :=
  if name.isEmpty then none else some ⟨String.ofList name, actions⟩

/-- A name without a semicolon that stands in front of it. -/
def unled : List Char → List Char
  | ';' :: name => name
  | name => name

/-- What a clause is read as behind a clause without a semicolon: a semicolon at the start of its
name is taken for the missing one. -/
def behind? (c : Clause) : Option Clause := named? (Text.trim (unled c.name.toList)) c.actions

theorem unled_sublist (name : List Char) : (unled name).Sublist name := by
  unfold unled
  split
  · exact List.sublist_cons_self ..
  · exact .refl _

theorem unled_of_head? {name : List Char} (head : name.head? ≠ some ';') : unled name = name := by
  unfold unled
  split
  · exact absurd rfl head
  · rfl

theorem WellFormed.named?_name {c : Clause} (wellFormed : c.WellFormed) :
    named? c.name.toList c.actions = some c := by
  simp [named?, wellFormed.name_ne_nil]

theorem WellFormed.behind?_of_head? {c : Clause} (wellFormed : c.WellFormed)
    (head : c.name.toList.head? ≠ some ';') : c.behind? = some c := by
  rw [behind?, unled_of_head? head, wellFormed.name_trimmed, wellFormed.named?_name]

/-- What is read of written clauses, where `bare` tells that a clause without a semicolon stands in
front of them. -/
def found (bare : Bool) : List Clause.Written → List Clause
  | [] => []
  | w :: ws => (if bare then w.clause.behind? else some w.clause).toList ++ found (!w.ended) ws

theorem found_of_head? (wellFormed : ∀ w ∈ ws, w.clause.WellFormed)
    (heads : ∀ w ∈ ws, w.clause.name.toList.head? ≠ some ';') (bare : Bool) :
    found bare ws = ws.map (·.clause) := by
  induction ws generalizing bare with
  | nil => rfl
  | cons w ws ih =>
    obtain ⟨here, wellFormed⟩ := List.forall_mem_cons.mp wellFormed
    obtain ⟨head, heads⟩ := List.forall_mem_cons.mp heads
    rw [found, here.behind?_of_head? head, ite_self, ih wellFormed heads]
    rfl

/-- The parts of a layout that starts with a clause. -/
theorem Written.exists_of_laid {tokens : List (List Char)}
    (laid : Laid Spaces (w.tokens ++ tokens) s) :
    ∃ before behind body after, s = before ++ w.clause.name.toList ++ behind ++
        '{' :: (body ++ '}' :: after) ∧ Spaces before ∧ Spaces behind ∧
      Laid Spaces (w.clause.actions.flatMap Action.tokens) body ∧
      Laid Spaces ((if w.ended then [[';']] else []) ++ tokens) after := by
  rw [Written.tokens, List.cons_append, List.cons_append, List.append_assoc,
    List.cons_append] at laid
  rcases laid with _ | ⟨before, _ | ⟨behind, laid⟩⟩
  obtain ⟨body, after, rfl, laid, laid'⟩ := laid.split
  exact ⟨_, _, body, after, by simp, before, behind, laid, laid'⟩

/-- Written clauses are passed over as a whole. -/
theorem passes_of_laid (wellFormed : ∀ w ∈ ws, w.clause.WellFormed)
    (laid : Laid Spaces (ws.flatMap Written.tokens) s) : Body.Passes s := by
  induction ws generalizing s with
  | nil =>
    cases laid with
    | nil last => exact .of_braceFree last.braceFree
  | cons w ws ih =>
    obtain ⟨here, wellFormed⟩ := List.forall_mem_cons.mp wellFormed
    obtain ⟨before, behind, body, after, rfl, spaces, spaces', laid, laid'⟩ :=
      Written.exists_of_laid laid
    have head : BraceFree (before ++ w.clause.name.toList ++ behind) :=
      braceFree_append.mpr ⟨braceFree_append.mpr ⟨spaces.braceFree, here.name_braceFree⟩,
        spaces'.braceFree⟩
    have inner : BraceFree body := Action.braceFree_of_laid here.actions laid
    have tail : Body.Passes after := by
      cases ended : w.ended with
      | false =>
        rw [ended] at laid'
        exact ih wellFormed laid'
      | true =>
        rw [ended] at laid'
        rcases laid' with _ | ⟨g, laid'⟩
        exact ((Body.Passes.of_braceFree g.braceFree).append (.of_braceFree (by decide))).append
          (ih wellFormed laid')
    have all := ((Body.Passes.of_braceFree head).append
      (Body.Passes.of_braceFree inner).nest).append tail
    simpa using all

/-- Behind a clause without a semicolon, one is looked for. -/
theorem resume_name {before name : List Char} (spaces : Spaces before)
    (trimmed : Text.IsTrimmed name) (some : name ≠ []) (rest : List Char) :
    Level.block.resume (before ++ name ++ rest) = unled name ++ rest := by
  obtain ⟨c, tail, rfl⟩ := List.exists_cons_of_ne_nil some
  have stops : Text.isSpace c = false := by
    refine Bool.eq_false_iff.mpr fun space => ?_
    have blank := trimmed.head? c rfl
    rw [Text.isBlank_of_isSpace space] at blank
    exact absurd blank (by decide)
  have drop : (before ++ (c :: tail) ++ rest).dropWhile Text.isSpace = c :: (tail ++ rest) := by
    rw [List.append_assoc]
    exact Text.dropWhile_append_cons_of_pos stops spaces _
  simp only [Level.resume, drop]
  by_cases semicolon : c = ';' <;> simp [unled, semicolon]

/-- A group with written actions in its body is read in front of other text. -/
theorem readAll_group_of_laid {pre body : List Char} {actions : List Action}
    (free : BraceFree pre) (wellFormed : ∀ a ∈ actions, a.WellFormed)
    (laid : Laid Spaces (actions.flatMap Action.tokens) body) (after : List Char) :
    Clause.readAll (pre ++ '{' :: (body ++ '}' :: after)) =
      (named? (Text.trim pre) actions).toList ++ Clause.readAll (Level.block.resume after) := by
  have inner : Body.Passes body := .of_braceFree (Action.braceFree_of_laid wellFormed laid)
  rw [readAll_group free inner, ofParts?, Action.readAll_laid wellFormed laid]
  rfl

/-- Written clauses with space between their tokens are read, in front of other clauses or behind
one. -/
theorem readAll_laid (wellFormed : ∀ w ∈ ws, w.clause.WellFormed)
    (laid : Laid Spaces (ws.flatMap Written.tokens) s) :
    Clause.readAll s = found false ws ∧ Clause.readAll (Level.block.resume s) = found true ws := by
  induction ws generalizing s with
  | nil =>
    cases laid with
    | nil last =>
      have flat := last.braceFree.notMem.1
      exact ⟨readAll_of_notMem flat,
        readAll_of_notMem fun mem => flat ((Level.resume_suffix _ s).subset mem)⟩
  | cons w ws ih =>
    obtain ⟨here, wellFormed⟩ := List.forall_mem_cons.mp wellFormed
    obtain ⟨before, behind, body, after, rfl, spaces, spaces', laid, laid'⟩ :=
      Written.exists_of_laid laid
    have tail : Clause.readAll (Level.block.resume after) = found (!w.ended) ws := by
      cases ended : w.ended with
      | false =>
        rw [ended] at laid'
        exact (ih wellFormed laid').2
      | true =>
        rw [ended] at laid'
        rcases laid' with _ | ⟨g, laid'⟩
        have semicolon := Text.dropWhile_append_cons_of_pos
          (show Text.isSpace ';' = false by decide) g
        simp only [List.append_assoc, List.cons_append, List.nil_append, Level.resume, semicolon]
        exact (ih wellFormed laid').1
    have read (pre : List Char) (free : BraceFree pre) :=
      readAll_group_of_laid free here.actions laid after
    constructor
    · -- The name as it is written.
      have free : BraceFree (before ++ w.clause.name.toList ++ behind) :=
        braceFree_append.mpr ⟨braceFree_append.mpr ⟨spaces.braceFree, here.name_braceFree⟩,
          spaces'.braceFree⟩
      rw [read _ free, here.name_trimmed.trim_spaces spaces spaces', here.named?_name, tail]
      rfl
    · -- The name without a semicolon that stands in front of it.
      have free : BraceFree (unled w.clause.name.toList ++ behind) :=
        braceFree_append.mpr ⟨here.name_braceFree.sublist (unled_sublist _), spaces'.braceFree⟩
      rw [List.append_assoc _ behind, resume_name spaces here.name_trimmed here.name_ne_nil,
        ← List.append_assoc, read _ free, Text.trim_append_of_blank spaces'.isBlank, tail]
      rfl

end Clause

/-! ### Blocks -/

namespace Block

variable {w : Block.Written}

/-- The words of a block are read as they are written: they can be written, none has a slash in it,
which could be part of a comment, and no name starts with a semicolon. -/
structure Plain (b : Block) : Prop extends b.WellFormed where
  slashes : ∀ word ∈ b.words, '/' ∉ word
  semicolons : ∀ c ∈ b.clauses, c.name.toList.head? ≠ some ';'

/-- What is read of a written block. -/
def Written.found (w : Block.Written) : Block := ⟨w.selector, Clause.found false w.clauses⟩

theorem Plain.found (plain : w.block.Plain) : w.found = w.block := by
  have wellFormed : ∀ w' ∈ w.clauses, w'.clause.WellFormed :=
    fun w' mem => plain.clauses _ (List.mem_map_of_mem mem)
  have heads : ∀ w' ∈ w.clauses, w'.clause.name.toList.head? ≠ some ';' :=
    fun w' mem => plain.semicolons _ (List.mem_map_of_mem mem)
  rw [Written.found, Clause.found_of_head? wellFormed heads, Written.block]

/-- What holds of the words of a block and of the marks between them holds of its tokens. -/
theorem Written.forall_mem_tokens {P : List Char → Prop}
    (words : ∀ word ∈ w.block.words, P word)
    (marks : ∀ mark ∈ [['{'], ['}'], [':'], [';']], P mark) : ∀ token ∈ w.tokens, P token := by
  simp only [Block.words, block, List.forall_mem_cons, List.flatMap_map, List.forall_mem_flatMap,
    Clause.words, Action.words] at words marks
  obtain ⟨selector, clauses⟩ := words
  obtain ⟨opening, closing, colon, semicolon, -⟩ := marks
  have action (w' : Clause.Written) (mem : w' ∈ w.clauses) :
      ∀ a ∈ w'.clause.actions, ∀ token ∈ a.tokens, P token := by
    intro a mem'
    have words := (clauses w' mem).2 a mem'
    simp only [Action.tokens, List.forall_mem_cons]
    exact ⟨words.1, colon, words.2.1, semicolon, words.2.2⟩
  have clause (w' : Clause.Written) (mem : w' ∈ w.clauses) : ∀ token ∈ w'.tokens, P token := by
    simp only [Clause.Written.tokens, List.forall_mem_cons, List.forall_mem_append,
      List.forall_mem_flatMap]
    refine ⟨(clauses w' mem).1, opening, action w' mem, closing, ?_⟩
    split <;> simp [semicolon]
  simp only [tokens, List.forall_mem_cons, List.forall_mem_append, List.forall_mem_flatMap]
  exact ⟨selector, opening, clause, closing, fun token mem => absurd mem List.not_mem_nil⟩

end Block

namespace Sheet

/-- Written blocks with space between their tokens are read. -/
theorem blocksOf_laid {sheet : List Block.Written} {s : List Char}
    (wellFormed : ∀ w ∈ sheet, w.block.WellFormed) (laid : Laid Spaces (tokens sheet) s) :
    blocksOf s = sheet.map (·.found) := by
  induction sheet generalizing s with
  | nil =>
    cases laid with
    | nil last => exact blocksOf_of_notMem last.braceFree.notMem.1
  | cons w sheet ih =>
    obtain ⟨here, wellFormed⟩ := List.forall_mem_cons.mp wellFormed
    rw [tokens, List.flatMap_cons, Block.Written.tokens, List.cons_append, List.cons_append,
      List.append_assoc, List.cons_append] at laid
    rcases laid with _ | ⟨before, _ | ⟨behind, laid⟩⟩
    obtain ⟨body, after, rfl, laid, laid'⟩ := laid.split
    have clauses : ∀ w' ∈ w.clauses, w'.clause.WellFormed :=
      fun w' mem => here.clauses _ (List.mem_map_of_mem mem)
    have free := braceFree_append.mpr ⟨braceFree_append.mpr
      ⟨before.braceFree, here.selector_braceFree⟩, behind.braceFree⟩
    have read := blocksOf_group free (Clause.passes_of_laid clauses laid) after
    rw [here.selector_trimmed.trim_spaces before behind, ih wellFormed laid', Block.ofParts,
      (Clause.readAll_laid clauses laid).1] at read
    simpa [Block.Written.block, Block.Written.found] using read

/-- Any layout of plain blocks, with space and comments before, between and behind their tokens, is
read as these blocks. -/
theorem parse_laid {sheet : List Block.Written} {source : String}
    (plain : ∀ w ∈ sheet, w.block.Plain) (laid : Laid Comment.Gap (tokens sheet) source.toList) :
    parse source = sheet.map (·.block) := by
  have slashes : ∀ token ∈ tokens sheet, '/' ∉ token :=
    List.forall_mem_flatMap.mpr fun w mem =>
      Block.Written.forall_mem_tokens (plain w mem).slashes (by decide)
  obtain ⟨code, laid, strips⟩ := laid.exists_stripsTo slashes
  rw [parse, strips.strip_eq, blocksOf_laid (fun w mem => (plain w mem).toWellFormed) laid]
  exact List.map_congr_left fun w mem => (plain w mem).found

/-- A button that falls when it is clicked. -/
def fallingButton : Block.Written := ⟨"button", [⟨⟨"click", [⟨"text", "fall"⟩]⟩, true⟩]⟩

/-- A way to write it, with comments and space. -/
def commentedButton : String :=
  "/* a *//* b */button\x7b click// on\n\x7btext: fall;\x7d ; \x7d"

theorem plain_fallingButton : fallingButton.block.Plain where
  selector_trimmed := by decide
  selector_braceFree := by decide
  clauses := List.forall_mem_singleton.mpr
    { name_ne_nil := by decide
      name_trimmed := by decide
      name_braceFree := by decide
      actions := List.forall_mem_singleton.mpr
        { property_ne_nil := by decide
          property_letters := List.all_eq_true.mp (by decide)
          value_ne_nil := by decide
          value_trimmed := by decide
          value_chars := List.all_eq_true.mp (by decide) } }
  slashes := by decide
  semicolons := by decide

theorem laid_commentedButton :
    Laid Comment.Gap (tokens [fallingButton]) commentedButton.toList := by
  have none : Comment.Gap [] := .nil
  have space : Comment.Gap [' '] := .space rfl none
  have spans : Comment.Gap "/* a *//* b */".toList :=
    @Comment.Gap.span " a ".toList _ (by decide) (@Comment.Gap.span " b ".toList _ (by decide) none)
  have line : Comment.Gap "// on\n".toList :=
    @Comment.Gap.line " on".toList _ (by decide) (by decide) none
  exact .cons spans <| .cons none <| .cons space <| .cons line <| .cons none <| .cons none <|
    .cons space <| .cons none <| .cons none <| .cons space <| .cons space <| .nil none

/-- A falling button is read among comments and space. -/
theorem parse_commentedButton :
    (∀ w ∈ [fallingButton], w.block.Plain) ∧
      Laid Comment.Gap (tokens [fallingButton]) commentedButton.toList ∧
      parse commentedButton = [⟨"button", [⟨"click", [⟨"text", "fall"⟩]⟩]⟩] :=
  have plain : ∀ w ∈ [fallingButton], w.block.Plain :=
    List.forall_mem_singleton.mpr plain_fallingButton
  ⟨plain, laid_commentedButton, parse_laid plain laid_commentedButton⟩

end Sheet

end TriggerSheet
