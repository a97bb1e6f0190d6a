import TriggerSheet.Proofs.Sheet.Spans

/-!
# The words of a sheet

The selectors, names, properties and values of a sheet are its words. Whatever text is read, the
words that come out stand in it, one behind the other and nowhere overlapping, and they are fit to
be written again: trimmed, free of braces, and not empty where that would mean something else.

## Main definitions

* `Sheet.words` — the words of a sheet, in order
* `Text.Stand` — words stand in a text, in order and apart
* `Clause.WellFormed`, `Block.WellFormed` — the words of a clause and of a block can be written

## Main results

* `Text.Stand.flatten_sublist` — no part of the text is used twice
* `Sheet.stand_words` — what is read stands in the text
* `Sheet.wellFormed_blocksOf` — what is read can be written
* `Sheet.wellFormed_parse` — both, for every sheet
-/

namespace TriggerSheet

open Text (BraceFree IsTrimmed trim_isInfix trim_trim)

/-! ### Words -/

/-- The words of an action. -/
def Action.words (a : Action) : List (List Char) := [a.property.toList, a.value.toList]

/-- The words of a clause. -/
def Clause.words (c : Clause) : List (List Char) := c.name.toList :: c.actions.flatMap Action.words

/-- The words of a block. -/
def Block.words (b : Block) : List (List Char) :=
  b.selector.toList :: b.clauses.flatMap Clause.words

/-- The words of a sheet, in order. -/
def Sheet.words (blocks : List Block) : List (List Char) := blocks.flatMap Block.words

/-- The words of a clause can be written. -/
structure Clause.WellFormed (c : Clause) : Prop where
  name_ne_nil : c.name.toList ≠ []
  name_trimmed : IsTrimmed c.name.toList
  name_braceFree : BraceFree c.name.toList
  actions : ∀ a ∈ c.actions, a.WellFormed

/-- The words of a block can be written. -/
structure Block.WellFormed (b : Block) : Prop where
  selector_trimmed : IsTrimmed b.selector.toList
  selector_braceFree : BraceFree b.selector.toList
  clauses : ∀ c ∈ b.clauses, c.WellFormed

/-! ### Standing in a text -/

namespace Text

/-- Words stand in a text, in order and apart. -/
inductive Stand : List (List Char) → List Char → Prop
  | nil (s : List Char) : Stand [] s
  | cons (gap word : List Char) {words : List (List Char)} {s : List Char} (rest : Stand words s) :
      Stand (word :: words) (gap ++ word ++ s)

namespace Stand

variable {words words' : List (List Char)} {s t word : List Char}

theorem skip (gap : List Char) (stand : Stand words s) : Stand words (gap ++ s) := by
  cases stand with
  | nil => exact .nil _
  | cons gap' word rest =>
    have stand := Stand.cons (gap ++ gap') word rest
    simpa only [List.append_assoc] using stand

theorem append (first : Stand words s) (second : Stand words' t) :
    Stand (words ++ words') (s ++ t) := by
  induction first with
  | nil gap => exact second.skip gap
  | cons gap word rest ih =>
    rw [List.append_assoc]
    exact .cons gap word ih

theorem of_isInfix (stand : Stand words s) (inside : s <:+: t) : Stand words t := by
  obtain ⟨before, after, rfl⟩ := inside
  have stand := (stand.skip before).append (.nil after)
  rwa [List.append_nil] at stand

theorem singleton (inside : word <:+: s) : Stand [word] s := by
  obtain ⟨before, after, rfl⟩ := inside
  exact .cons before word (.nil after)

/-- Each of the words stands in the text. -/
theorem isInfix_of_mem (stand : Stand words s) (mem : word ∈ words) : word <:+: s := by
  induction stand with
  | nil => exact absurd mem List.not_mem_nil
  | cons gap first rest ih =>
    rcases List.mem_cons.mp mem with rfl | mem
    · exact List.infix_append _ _ _
    · exact (ih mem).trans (List.suffix_append _ _).isInfix

/-- No part of the text is used twice. -/
theorem flatten_sublist (stand : Stand words s) : words.flatten.Sublist s := by
  induction stand with
  | nil s => exact List.nil_sublist s
  | cons gap word rest ih =>
    rw [List.flatten_cons, List.append_assoc]
    exact ((List.Sublist.refl word).append ih).trans (List.sublist_append_right gap _)

end Stand

end Text

open Text (Stand)

/-! ### Groups -/

section Groups

variable {level : Level} {α : Type}

/-- Where the words of a group stand in its name and body, those of all groups stand in the
text. -/
theorem Group.stand_texts {words : List Char × List Char → List (List Char)}
    (inner : ∀ pre body, Stand (words (Text.trim pre, body)) (pre ++ '{' :: body))
    (s : List Char) : Stand ((texts level s).flatMap words) s := by
  induction s using Text.brace_induction with
  | free s free =>
    rw [texts_of_notMem free.notMem.1]
    exact .nil s
  | closing pre rest free ih =>
    have stand := ih.skip (pre ++ ['}'])
    rw [texts_closing free]
    simpa using stand
  | opening pre rest free ih =>
    obtain ⟨closing, all⟩ := Body.read_eq_append Nat.one_pos rest
    have short : (level.resume (Body.read 1 rest).rest).length ≤ rest.length :=
      Nat.le_trans (level.resume_suffix _).length_le (Body.length_rest_read_le 1 rest)
    have later := ((ih _ short).of_isInfix (level.resume_suffix _).isInfix).skip closing
    have stand := (inner pre (Body.read 1 rest).text).append later
    rw [texts_opening free, List.flatMap_cons]
    conv => rhs; rw [all]
    simpa using stand

/-- Names are trimmed, and no brace gets into them. -/
theorem Group.trimmed_texts (s : List Char) :
    ∀ group ∈ texts level s, IsTrimmed group.1 ∧ BraceFree group.1 := by
  induction s using Text.brace_induction with
  | free s free =>
    rw [texts_of_notMem free.notMem.1]
    exact fun group mem => absurd mem List.not_mem_nil
  | closing pre rest free ih =>
    rw [texts_closing free]
    exact ih
  | opening pre rest free ih =>
    have short : (level.resume (Body.read 1 rest).rest).length ≤ rest.length :=
      Nat.le_trans (level.resume_suffix _).length_le (Body.length_rest_read_le 1 rest)
    rw [texts_opening free]
    exact List.forall_mem_cons.mpr ⟨⟨trim_trim pre, free.sublist (trim_isInfix pre).sublist⟩,
      ih _ short⟩

end Groups

/-! ### Actions -/

namespace Action

variable {s property value rest : List Char}

/-- What it takes for an action to start a text. -/
theorem readAt?_eq_some (read : readAt? s = some (property, value, rest)) :
    (∃ blanks, s = property ++ (blanks ++ ':' :: (value ++ ';' :: rest)) ∧
        ∀ c ∈ blanks, Text.isBlank c = true) ∧
      property ≠ [] ∧ (∀ c ∈ property, isPropertyChar c = true) ∧
      value ≠ [] ∧ ∀ c ∈ value, isValueChar c = true := by
  simp only [readAt?, Option.ite_none_left_eq_some, Option.map_eq_some_iff, Prod.exists,
    Prod.mk.injEq] at read
  obtain ⟨named, value', rest', read, rfl, rfl, rfl⟩ := read
  unfold readColon? at read
  split at read
  next tail colon =>
    unfold readValue? at read
    split at read
    next rest ends =>
      simp only [Option.ite_none_left_eq_some, Option.some.injEq, Prod.mk.injEq] at read
      obtain ⟨some, rfl, rfl⟩ := read
      refine ⟨⟨(s.dropWhile isPropertyChar).takeWhile Text.isBlank, ?_,
          List.all_eq_true.mp List.all_takeWhile⟩, by simpa using named,
        List.all_eq_true.mp List.all_takeWhile, by simpa using some,
        List.all_eq_true.mp List.all_takeWhile⟩
      rw [← ends, List.takeWhile_append_dropWhile, ← colon, Text.trimStart,
        List.takeWhile_append_dropWhile, List.takeWhile_append_dropWhile]
    next => simp at read
  next => simp at read

theorem ofParts?_eq_some {a : Action} (read : ofParts? property value = some a) :
    a = ⟨String.ofList property, String.ofList (Text.trim value)⟩ ∧ Text.trim value ≠ [] := by
  simp only [ofParts?, Option.ite_none_left_eq_some, Option.some.injEq] at read
  exact ⟨read.2.symm, by simpa using read.1⟩

/-- The words of the actions that are read stand in the text. -/
theorem stand_readAll (s : List Char) : Stand ((readAll s).flatMap words) s := by
  induction s using readAll.induct with
  | case1 s property value rest read ih =>
    obtain ⟨⟨blanks, rfl, -⟩, -⟩ := readAt?_eq_some read
    have first : Stand ((ofParts? property value).toList.flatMap words)
        (property ++ (blanks ++ ':' :: value)) := by
      cases parts : ofParts? property value with
      | none => exact .nil _
      | some a =>
        obtain ⟨rfl, -⟩ := ofParts?_eq_some parts
        have both := (Stand.singleton (List.infix_refl property)).append
          ((Stand.singleton (trim_isInfix value)).skip (blanks ++ [':']))
        simpa [words] using both
    have both := first.append (ih.skip [';'])
    rw [readAll_of_readAt? read, List.flatMap_append]
    simpa using both
  | case2 =>
    rw [readAll_nil]
    exact .nil []
  | case3 c rest read ih =>
    rw [readAll_cons read]
    exact ih.skip [c]

/-- The actions that are read can be written. -/
theorem wellFormed_readAll (s : List Char) : ∀ a ∈ readAll s, a.WellFormed := by
  induction s using readAll.induct with
  | case1 s property value rest read ih =>
    obtain ⟨-, named, letters, -, chars⟩ := readAt?_eq_some read
    rw [readAll_of_readAt? read]
    refine List.forall_mem_append.mpr ⟨fun a mem => ?_, ih⟩
    obtain ⟨rfl, some⟩ := ofParts?_eq_some (Option.mem_toList.mp mem)
    exact
      { property_ne_nil := by simpa using named
        property_letters := by simpa using letters
        value_ne_nil := by simpa using some
        value_trimmed := by simpa using trim_trim value
        value_chars := by
          intro c mem
          rw [String.toList_ofList] at mem
          exact chars c ((trim_isInfix value).subset mem) }
  | case2 =>
    rw [readAll_nil]
    exact fun a mem => absurd mem List.not_mem_nil
  | case3 c rest read ih =>
    rw [readAll_cons read]
    exact ih

end Action

/-! ### Clauses and blocks -/

theorem Clause.ofParts?_eq_some {name body : List Char} {c : Clause}
    (read : ofParts? name body = some c) :
    c = ⟨String.ofList name, Action.readAll body⟩ ∧ name ≠ [] := by
  simp only [ofParts?, Option.ite_none_left_eq_some, Option.some.injEq] at read
  exact ⟨read.2.symm, by simpa using read.1⟩

/-- The words of the clauses that are read stand in the text. -/
theorem Clause.stand_readAll (s : List Char) : Stand ((readAll s).flatMap words) s := by
  have parts : (readAll s).flatMap words =
      (Group.texts .block s).flatMap fun group =>
        (ofParts? group.1 group.2).toList.flatMap words := by
    rw [readAll_eq, List.filterMap_eq_flatMap_toList, List.flatMap_assoc]
  rw [parts]
  refine Group.stand_texts (fun pre body => ?_) s
  cases read : ofParts? (Text.trim pre) body with
  | none => exact .nil _
  | some c =>
    obtain ⟨rfl, -⟩ := ofParts?_eq_some read
    have both := (Stand.singleton (trim_isInfix pre)).append
      ((Action.stand_readAll body).skip ['{'])
    simpa [words] using both

/-- The clauses that are read can be written. -/
theorem Clause.wellFormed_readAll (s : List Char) : ∀ c ∈ readAll s, c.WellFormed := by
  intro c mem
  rw [readAll_eq] at mem
  obtain ⟨⟨name, body⟩, group, read⟩ := List.mem_filterMap.mp mem
  obtain ⟨trimmed, free⟩ := Group.trimmed_texts s _ group
  obtain ⟨rfl, some⟩ := ofParts?_eq_some read
  exact
    { name_ne_nil := by simpa using some
      name_trimmed := by simpa using trimmed
      name_braceFree := by simpa using free
      actions := Action.wellFormed_readAll body }

namespace Sheet

/-- The words of what is read stand in the text. -/
theorem stand_words (code : List Char) : Stand (words (blocksOf code)) code := by
  rw [blocksOf_eq, words, List.flatMap_map]
  refine Group.stand_texts (fun pre body => ?_) code
  have both := (Stand.singleton (trim_isInfix pre)).append ((Clause.stand_readAll body).skip ['{'])
  simpa [Block.ofParts, Block.words] using both

/-- What is read can be written. -/
theorem wellFormed_blocksOf (code : List Char) : ∀ b ∈ blocksOf code, b.WellFormed := by
  intro b mem
  rw [blocksOf_eq] at mem
  obtain ⟨⟨name, body⟩, group, rfl⟩ := List.mem_map.mp mem
  obtain ⟨trimmed, free⟩ := Group.trimmed_texts code _ group
  exact
    { selector_trimmed := by simpa [Block.ofParts] using trimmed
      selector_braceFree := by simpa [Block.ofParts] using free
      clauses := Clause.wellFormed_readAll body }

/-- Whatever the source, the words that are read can be written, no `//` is in any of them, and they
stand in the source without its comments, in order and apart. -/
theorem wellFormed_parse (source : String) :
    (∀ b ∈ parse source, b.WellFormed) ∧
      (∀ word ∈ words (parse source), ¬['/', '/'] <:+: word) ∧
      Stand (words (parse source)) (Comment.strip source.toList) := by
  have stand := stand_words (Comment.strip source.toList)
  refine ⟨wellFormed_blocksOf _, fun word mem slashes => ?_, stand⟩
  -- A `//` in a word would be left in the source.
  exact Comment.not_pair_strip source.toList (slashes.trans (stand.isInfix_of_mem mem))

/-- A stray brace, a comment, a clause without a name, and a block inside one that is never
closed. -/
def damagedButton : String :=
  "\x7d button// on\n\x7b \x7b a: b; \x7d click \x7b text: fall; c\x7bd :e;"

theorem wellFormed_damagedButton :
    parse damagedButton = [⟨"button", [⟨"click", [⟨"text", "fall"⟩, ⟨"d", "e"⟩]⟩]⟩] ∧
      Block.WellFormed ⟨"button", [⟨"click", [⟨"text", "fall"⟩, ⟨"d", "e"⟩]⟩]⟩ := by
  have read : parse damagedButton =
      [⟨"button", [⟨"click", [⟨"text", "fall"⟩, ⟨"d", "e"⟩]⟩]⟩] := by decide +kernel
  obtain ⟨wellFormed, -⟩ := wellFormed_parse damagedButton
  exact ⟨read, wellFormed _ (by rw [read]; exact List.mem_singleton_self _)⟩

end Sheet

end TriggerSheet
