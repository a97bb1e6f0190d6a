import TriggerSheet.Proofs.Sheet.Layout

/-!
# Reading what was written

The written form of a sheet is one of its layouts, without a semicolon behind any clause. So a
sheet that was read and is written again comes back, unless its words stand in the way. Together
they may hold a comment: one that was taken out can have stood between the marks of another. And
with two semicolons in a row behind a clause, the second is the start of the next name, which loses
it when it is read again.

## Main definitions

* `Block.written` — a block with no semicolon behind any clause

## Main results

* `Sheet.laid_text` — the written form is a layout
* `Sheet.parse_text_iff` — when what was read is read again
-/

namespace TriggerSheet

open Text (Spaces)

/-! ### The written form as a layout -/

namespace Laid

variable {tokens tokens' : List (List Char)} {s t g : List Char}

/-- Space in front of a layout is part of it. -/
theorem spaces (spaces : Spaces g) (laid : Laid Spaces tokens s) : Laid Spaces tokens (g ++ s) := by
  cases laid with
  | nil last => exact .nil (spaces.append last)
  | @cons g' token s tokens first rest =>
    rw [← List.append_assoc, ← List.append_assoc]
    exact .cons (spaces.append first) rest

theorem append (first : Laid Spaces tokens s) (second : Laid Spaces tokens' t) :
    Laid Spaces (tokens ++ tokens') (s ++ t) := by
  induction first with
  | nil last => exact second.spaces last
  | cons first _ ih =>
    rw [List.append_assoc]
    exact .cons first ih

theorem token (token : List Char) : Laid Spaces [token] token := by
  have empty : Spaces [] := by decide
  have laid := @Laid.cons _ _ token _ _ empty (.nil empty)
  simpa using laid

/-- Slashes stand in tokens. -/
theorem count_slash (laid : Laid Spaces tokens s) : s.count '/' = tokens.flatten.count '/' := by
  have none {g : List Char} (spaces : Spaces g) : g.count '/' = 0 :=
    List.count_eq_zero.mpr fun mem => absurd (spaces _ mem) (by decide)
  induction laid with
  | nil last => exact none last
  | cons first _ ih =>
    rw [List.count_append, List.count_append, none first, ih, List.flatten_cons, List.count_append,
      Nat.zero_add]

end Laid

/-- A block with no semicolon behind any clause. -/
def Block.written (b : Block) : Block.Written := ⟨b.selector, b.clauses.map (⟨·, false⟩)⟩

theorem Block.block_written (b : Block) : b.written.block = b := by
  simp [written, Written.block, Function.comp_def]

theorem Action.laid_text (a : Action) : Laid Spaces a.tokens a.text.toList := by
  have space : Laid Spaces [] [' '] := .nil (by decide)
  have laid := (((Laid.token a.property.toList).append ((Laid.token [':']).append space)).append
    (Laid.token a.value.toList)).append (Laid.token [';'])
  simpa [text, tokens] using laid

/-- A name and parts between braces are laid out if the parts are. -/
theorem laid_groupText {α : Type} {parts : List α} {tokens : α → List (List Char)}
    {text : α → String} (each : ∀ part, Laid Spaces (tokens part) (text part).toList)
    (name : String) :
    Laid Spaces (name.toList :: ['{'] :: (parts.flatMap tokens ++ [['}']]))
      (groupText name (parts.map text)).toList := by
  have space : Spaces [' '] := by decide
  have empty : Spaces [] := by decide
  have inside : Laid Spaces (parts.flatMap tokens)
      (String.join ((parts.map text).map (" " ++ ·))).toList := by
    induction parts with
    | nil => exact .nil empty
    | cons part parts ih =>
      have laid := ((each part).spaces space).append ih
      simpa using laid
  have laid := (((Laid.token name.toList).append ((Laid.token ['{']).spaces space)).append
    inside).append ((Laid.token ['}']).spaces space)
  simpa [groupText] using laid

theorem Clause.laid_text (c : Clause) :
    Laid Spaces (Clause.Written.mk c false).tokens c.text.toList :=
  laid_groupText Action.laid_text c.name

theorem Block.laid_text (b : Block) : Laid Spaces b.written.tokens b.text.toList := by
  rw [Written.tokens, written, List.flatMap_map]
  exact laid_groupText Clause.laid_text b.selector

namespace Sheet

/-- The written form of a sheet is one of its layouts. -/
theorem laid_text (blocks : List Block) :
    Laid Spaces (tokens (blocks.map Block.written)) (text blocks).toList := by
  rw [text, String.toList_intercalate, List.map_map]
  induction blocks with
  | nil => exact .nil (by decide)
  | cons b blocks ih =>
    cases blocks with
    | nil =>
      have laid := b.laid_text
      simpa [tokens, List.intercalate] using laid
    | cons b' blocks =>
      have newline : Spaces ['\n'] := by decide
      have laid := b.laid_text.append (ih.spaces newline)
      simpa [tokens, List.intercalate] using laid

end Sheet

/-! ### Reading it again -/

namespace Clause

variable {c : Clause} {cs : List Clause}

/-- Behind a clause without a semicolon, only a name that starts with one is changed. -/
theorem WellFormed.behind?_eq_self_iff (wellFormed : c.WellFormed) :
    c.behind? = some c ↔ c.name.toList.head? ≠ some ';' := by
  refine ⟨fun same head => ?_, wellFormed.behind?_of_head?⟩
  obtain ⟨name, eq⟩ := List.head?_eq_some_iff.mp head
  simp only [behind?, named?, unled, eq, Option.ite_none_left_eq_some, Option.some.injEq] at same
  -- The name that is left is too short.
  have shorter := congrArg (fun c => c.name.toList.length) same.2
  have trim := Text.length_trim_le name
  simp only [String.toList_ofList, eq, List.length_cons] at shorter
  omega

theorem found_true (cs : List Clause) :
    found true (cs.map (⟨·, false⟩)) = cs.filterMap behind? := by
  induction cs with
  | nil => rfl
  | cons c cs ih =>
    rw [List.map_cons, found, Bool.not_false, ih]
    cases behind : c.behind? <;> simp [behind]

theorem filterMap_behind?_eq_self_iff (wellFormed : ∀ c ∈ cs, c.WellFormed) :
    cs.filterMap behind? = cs ↔ ∀ c ∈ cs, c.name.toList.head? ≠ some ';' := by
  induction cs with
  | nil => simp
  | cons c cs ih =>
    obtain ⟨here, wellFormed⟩ := List.forall_mem_cons.mp wellFormed
    rw [List.forall_mem_cons, ← here.behind?_eq_self_iff, ← ih wellFormed]
    cases behind : c.behind? with
    | none =>
      -- One clause less is never as many.
      rw [List.filterMap_cons_none behind]
      have fewer := List.length_filterMap_le behind? cs
      refine iff_of_false (fun same => ?_) (fun both => absurd both.1 (by simp))
      rw [same, List.length_cons] at fewer
      omega
    | some c' => rw [List.filterMap_cons_some behind, List.cons.injEq, Option.some.injEq]

end Clause

/-- A written block is read again as it was unless a clause behind another has a name that starts
with a semicolon. -/
theorem Block.found_written_iff {b : Block} (wellFormed : b.WellFormed) :
    b.written.found = b ↔ ∀ c ∈ b.clauses.tail, c.name.toList.head? ≠ some ';' := by
  obtain ⟨selector, clauses⟩ := b
  cases clauses with
  | nil => simp [written, Written.found, Clause.found]
  | cons c cs =>
    have tail : ∀ c ∈ cs, c.WellFormed := fun c mem =>
      wellFormed.clauses c (List.mem_cons_of_mem _ mem)
    simp [written, Written.found, Clause.found, Clause.found_true,
      Clause.filterMap_behind?_eq_self_iff tail]

/-! ### Slashes -/

theorem count_flatMap_congr {α : Type} {c : Char} {f g : α → List (List Char)}
    (each : ∀ x, (f x).flatten.count c = (g x).flatten.count c) (l : List α) :
    (l.flatMap f).flatten.count c = (l.flatMap g).flatten.count c := by
  induction l with
  | nil => rfl
  | cons x l ih =>
    rw [List.flatMap_cons, List.flatMap_cons, List.flatten_append, List.flatten_append,
      List.count_append, List.count_append, each, ih]

theorem Action.count_slash_tokens (a : Action) :
    a.tokens.flatten.count '/' = a.words.flatten.count '/' := by
  simp [tokens, words]

theorem Clause.count_slash_tokens (c : Clause) :
    (Written.mk c false).tokens.flatten.count '/' = c.words.flatten.count '/' := by
  have actions := count_flatMap_congr Action.count_slash_tokens c.actions
  simp [Written.tokens, words, actions]

theorem Block.count_slash_tokens (b : Block) :
    b.written.tokens.flatten.count '/' = b.words.flatten.count '/' := by
  have clauses := count_flatMap_congr Clause.count_slash_tokens b.clauses
  simp [Written.tokens, written, words, List.flatMap_map, clauses]

namespace Sheet

/-- The marks and the space between the words hold no slash. -/
theorem count_slash_text (blocks : List Block) :
    (text blocks).toList.count '/' = (words blocks).flatten.count '/' := by
  rw [(laid_text blocks).count_slash, tokens, List.flatMap_map, words]
  exact count_flatMap_congr Block.count_slash_tokens blocks

/-- What was read is read again as it was if and only if its written form holds no comment and no
clause behind another has a name that starts with a semicolon. -/
theorem parse_text_iff (source : String) :
    parse (text (parse source)) = parse source ↔
      Comment.strip (text (parse source)).toList = (text (parse source)).toList ∧
        ∀ b ∈ parse source, ∀ c ∈ b.clauses.tail, c.name.toList.head? ≠ some ';' := by
  have wellFormed : ∀ b ∈ parse source, b.WellFormed := wellFormed_blocksOf _
  generalize parse source = blocks at wellFormed ⊢
  have again (same : Comment.strip (text blocks).toList = (text blocks).toList) :
      parse (text blocks) = blocks.map fun b => b.written.found := by
    have wellFormed' : ∀ w ∈ blocks.map Block.written, w.block.WellFormed := by
      simpa [Block.block_written] using wellFormed
    rw [parse, same, blocksOf_laid wellFormed' (laid_text blocks), List.map_map]
    rfl
  have names : (blocks.map fun b => b.written.found) = blocks ↔
      ∀ b ∈ blocks, ∀ c ∈ b.clauses.tail, c.name.toList.head? ≠ some ';' := by
    conv => lhs; rhs; rw [← List.map_id blocks]
    rw [List.map_inj_left]
    exact forall₂_congr fun b mem => Block.found_written_iff (wellFormed b mem)
  have same (read : parse (text blocks) = blocks) :
      Comment.strip (text blocks).toList = (text blocks).toList := by
    -- Without its comments, the written form would have too few slashes for the words in it.
    refine (Comment.strip_eq_or_count_lt _).resolve_right fun less => ?_
    have stand := (stand_words (Comment.strip (text blocks).toList)).flatten_sublist.count_le '/'
    rw [← parse, read, ← count_slash_text] at stand
    omega
  constructor
  · intro read
    exact ⟨same read, names.mp (by rw [← again (same read), read])⟩
  · rintro ⟨same, heads⟩
    rw [again same, names.mpr heads]

/-- With two semicolons in a row, the second becomes part of a name, which loses it when it is read
again. -/
theorem parse_text_doubleSemicolon :
    parse "x { a { } ;; b { } }" = [⟨"x", [⟨"a", []⟩, ⟨"; b", []⟩]⟩] ∧
      parse (text (parse "x { a { } ;; b { } }")) = [⟨"x", [⟨"a", []⟩, ⟨"b", []⟩]⟩] ∧
      parse (text (parse "x { a { } ;; b { } }")) ≠ parse "x { a { } ;; b { } }" := by
  decide +kernel

-- The comment between the marks of another goes when the sheet is read, the other when it is read
-- again.
example : parse "//*x*/*y*/ { }" = [⟨"/*y*/", []⟩] ∧
    parse (text (parse "//*x*/*y*/ { }")) = [⟨"", []⟩] := by
  decide +kernel

end Sheet

end TriggerSheet
