import TriggerSheet.Proofs.Sheet.Scan
import TriggerSheet.Sheet.Reader

/-!
# Reading by parts

What is read of a text that is put together: a closed group in front of a text, an action in front
of a text, and space in front of a text.

## Main definitions

* `Clause.ofParts?`, `Block.ofParts` — the clause and the block of a name and a body
* `Text.Spaces` — a text of space alone

## Main results

* `Clause.readAll_group`, `Sheet.blocksOf_group` — a closed group gives a clause, or a block
* `Action.readAll_action` — a written action is read as it is
-/

namespace TriggerSheet

open Text (BraceFree)

/-! ### Space -/

namespace Text

/-- A text of space alone. -/
def Spaces (s : List Char) : Prop := ∀ c ∈ s, isSpace c = true

instance (s : List Char) : Decidable (Spaces s) :=
  List.decidableBAll (isSpace · = true) s

variable {s t : List Char}

theorem Spaces.append (first : Spaces s) (second : Spaces t) : Spaces (s ++ t) :=
  List.forall_mem_append.mpr ⟨first, second⟩

theorem Spaces.isBlank (spaces : Spaces s) : ∀ c ∈ s, isBlank c = true :=
  fun c mem => isBlank_of_isSpace (spaces c mem)

theorem isBrace_of_isBlank {c : Char} (blank : isBlank c = true) : isBrace c = false := by
  by_contra brace
  have is : c = '{' ∨ c = '}' := by
    simpa only [isBrace, Bool.not_eq_false, Bool.or_eq_true, beq_iff_eq] using brace
  rcases is with rfl | rfl <;> exact absurd blank (by decide)

theorem braceFree_of_blank (blank : ∀ c ∈ s, isBlank c = true) : BraceFree s :=
  fun c mem => isBrace_of_isBlank (blank c mem)

theorem Spaces.braceFree (spaces : Spaces s) : BraceFree s := braceFree_of_blank spaces.isBlank

/-- Space around a trimmed text is trimmed off. -/
theorem IsTrimmed.trim_spaces (trimmed : IsTrimmed s) {before after : List Char}
    (spaces : Spaces before) (spaces' : Spaces after) : trim (before ++ s ++ after) = s := by
  rw [trim_surround spaces.isBlank spaces'.isBlank, trimmed]

end Text

open Text (Spaces)

/-! ### Clauses and blocks -/

/-- The clause of a name and a body, unless the name is empty. -/
def Clause.ofParts? (name body : List Char) : Option Clause :=
  if name.isEmpty then none else some ⟨String.ofList name, Action.readAll body⟩

/-- The block of a name and a body. -/
def Block.ofParts (name body : List Char) : Block := ⟨String.ofList name, Clause.readAll body⟩

section Groups

variable {pre body rest : List Char}

theorem Clause.readAll_eq (body : List Char) :
    Clause.readAll body =
      (Group.texts .block body).filterMap fun group => ofParts? group.1 group.2 := by
  rw [Group.texts, List.filterMap_map]
  rfl

theorem Clause.readAll_of_notMem (flat : '{' ∉ body) : Clause.readAll body = [] := by
  rw [Clause.readAll_eq, Group.texts_of_notMem flat]
  rfl

/-- A closed group gives a clause, if it has a name. -/
theorem Clause.readAll_group (free : BraceFree pre) (inner : Body.Passes body) (rest : List Char) :
    Clause.readAll (pre ++ '{' :: (body ++ '}' :: rest)) =
      (ofParts? (Text.trim pre) body).toList ++ Clause.readAll (Level.block.resume rest) := by
  rw [Clause.readAll_eq, Group.texts_group free inner, List.filterMap_cons, Clause.readAll_eq]
  cases ofParts? (Text.trim pre) body <;> rfl

theorem Sheet.blocksOf_eq (code : List Char) :
    blocksOf code =
      (Group.texts .sheet code).map fun group => Block.ofParts group.1 group.2 := by
  rw [Group.texts, List.map_map]
  rfl

theorem Sheet.blocksOf_of_notMem (flat : '{' ∉ body) : blocksOf body = [] := by
  rw [blocksOf_eq, Group.texts_of_notMem flat]
  rfl

/-- A closed group gives a block. -/
theorem Sheet.blocksOf_group (free : BraceFree pre) (inner : Body.Passes body)
    (rest : List Char) :
    blocksOf (pre ++ '{' :: (body ++ '}' :: rest)) =
      Block.ofParts (Text.trim pre) body :: blocksOf rest := by
  rw [blocksOf_eq, Group.texts_group free inner, List.map_cons, blocksOf_eq]
  rfl

end Groups

/-! ### Actions -/

namespace Action

variable {s value before after : List Char} {c : Char}

theorem readAt?_of_not_isPropertyChar (other : isPropertyChar c = false) (rest : List Char) :
    readAt? (c :: rest) = none := by
  simp [readAt?, other]

theorem readAll_cons_of_not_isPropertyChar (other : isPropertyChar c = false)
    (rest : List Char) : readAll (c :: rest) = readAll rest :=
  readAll_cons (readAt?_of_not_isPropertyChar other rest)

/-- What ends a value is a semicolon or a brace. -/
theorem isValueChar_eq_false_iff : isValueChar c = false ↔ c = ';' ∨ c = '{' ∨ c = '}' := by
  simp only [isValueChar, Bool.and_eq_false_iff, bne_eq_false_iff_eq, or_assoc]

theorem isValueChar_of_isBlank (blank : Text.isBlank c = true) : isValueChar c = true := by
  by_contra ends
  rcases isValueChar_eq_false_iff.mp (Bool.not_eq_true _ ▸ ends) with rfl | rfl | rfl <;>
    exact absurd blank (by decide)

theorem isValueChar_of_isPropertyChar (letter : isPropertyChar c = true) :
    isValueChar c = true := by
  by_contra ends
  rcases isValueChar_eq_false_iff.mp (Bool.not_eq_true _ ▸ ends) with rfl | rfl | rfl <;>
    exact absurd letter (by decide)

theorem toNat_of_isPropertyChar (letter : isPropertyChar c = true) :
    (65 ≤ c.toNat ∧ c.toNat ≤ 90) ∨ (97 ≤ c.toNat ∧ c.toNat ≤ 122) ∨ c.toNat = 45 := by
  have upper : c.isUpper = decide (65 ≤ c.toNat ∧ c.toNat ≤ 90) := rfl
  have lower : c.isLower = (decide (97 ≤ c.toNat) && decide (c.toNat ≤ 122)) := rfl
  have property : isPropertyChar c = (c.isUpper || c.isLower || c == '-') := rfl
  simp only [property, upper, lower, Bool.or_eq_true, Bool.and_eq_true, decide_eq_true_eq,
    beq_iff_eq] at letter
  rcases letter with (upper | lower) | rfl
  · exact .inl upper
  · exact .inr (.inl lower)
  · decide

theorem isPropertyChar_of_isBlank (blank : Text.isBlank c = true) : isPropertyChar c = false := by
  by_contra letter
  have code := toNat_of_isPropertyChar (Bool.not_eq_false _ ▸ letter)
  simp only [Text.isBlank, Bool.or_eq_true, Bool.and_eq_true, decide_eq_true_eq, beq_iff_eq]
    at blank
  omega

/-- Space in front of actions is passed over. -/
theorem readAll_spaces (spaces : Spaces s) (rest : List Char) :
    readAll (s ++ rest) = readAll rest := by
  induction s with
  | nil => rfl
  | cons c s ih =>
    have blank := spaces.isBlank c (List.mem_cons_self ..)
    rw [List.cons_append, readAll_cons_of_not_isPropertyChar (isPropertyChar_of_isBlank blank)]
    exact ih fun c mem => spaces c (List.mem_cons_of_mem _ mem)

/-- A value goes up to the semicolon behind it. -/
theorem readValue?_append (all : ∀ c ∈ value, isValueChar c = true) (some : value ≠ [])
    (rest : List Char) : readValue? (value ++ ';' :: rest) = .some (value, rest) := by
  have stops : isValueChar ';' = false := by decide
  rw [readValue?, Text.dropWhile_append_cons_of_pos stops all,
    Text.takeWhile_append_cons_of_pos stops all]
  simp [some]

/-- The parts of an action that starts a text. -/
theorem readAt?_append {property : List Char} (letters : ∀ c ∈ property, isPropertyChar c = true)
    (named : property ≠ []) (blank : ∀ c ∈ before, Text.isBlank c = true)
    (all : ∀ c ∈ value, isValueChar c = true)
    (some : value ≠ []) (rest : List Char) :
    readAt? (property ++ (before ++ ':' :: (value ++ ';' :: rest))) =
      .some (property, value, rest) := by
  -- The colon, or the blank in front of it, ends the property.
  obtain ⟨c, more, first, stops⟩ : ∃ c more,
      before ++ ':' :: (value ++ ';' :: rest) = c :: more ∧ isPropertyChar c = false := by
    cases before with
    | nil => exact ⟨':', _, rfl, by decide⟩
    | cons c before =>
      exact ⟨c, _, rfl, isPropertyChar_of_isBlank (blank c (List.mem_cons_self ..))⟩
  have colon : Text.trimStart (before ++ ':' :: (value ++ ';' :: rest)) =
      ':' :: (value ++ ';' :: rest) :=
    Text.dropWhile_append_cons_of_pos (by decide) blank _
  rw [readAt?, first, Text.takeWhile_append_cons_of_pos stops letters,
    Text.dropWhile_append_cons_of_pos stops letters, ← first, colon, readColon?,
    readValue?_append all some]
  simp [named]

end Action

/-- The texts of an action can be written: the property is a word, and the value is trimmed and
ends where it should. -/
structure Action.WellFormed (a : Action) : Prop where
  property_ne_nil : a.property.toList ≠ []
  property_letters : ∀ c ∈ a.property.toList, Action.isPropertyChar c = true
  value_ne_nil : a.value.toList ≠ []
  value_trimmed : Text.IsTrimmed a.value.toList
  value_chars : ∀ c ∈ a.value.toList, Action.isValueChar c = true

/-- A written action is read as it is. -/
theorem Action.readAll_action {a : Action} (wellFormed : a.WellFormed)
    {before colon value after : List Char} (spaces : Spaces before) (spaces₁ : Spaces colon)
    (spaces₂ : Spaces value) (spaces₃ : Spaces after) (rest : List Char) :
    readAll (before ++ (a.property.toList ++ (colon ++ ':' ::
      (value ++ a.value.toList ++ after ++ ';' :: rest)))) = a :: readAll rest := by
  have chars : ∀ c ∈ value ++ a.value.toList ++ after, isValueChar c = true := by
    intro c mem
    rcases List.mem_append.mp mem with mem | mem
    · rcases List.mem_append.mp mem with mem | mem
      · exact isValueChar_of_isBlank (spaces₂.isBlank c mem)
      · exact wellFormed.value_chars c mem
    · exact isValueChar_of_isBlank (spaces₃.isBlank c mem)
  have some : value ++ a.value.toList ++ after ≠ [] := by simp [wellFormed.value_ne_nil]
  have read := readAt?_append wellFormed.property_letters wellFormed.property_ne_nil
    spaces₁.isBlank chars some rest
  have trimmed := wellFormed.value_trimmed.trim_spaces spaces₂ spaces₃
  rw [readAll_spaces spaces, readAll_of_readAt? read, ofParts?, trimmed]
  simp [wellFormed.value_ne_nil]

end TriggerSheet
