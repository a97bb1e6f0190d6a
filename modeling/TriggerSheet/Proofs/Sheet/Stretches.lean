import TriggerSheet.Proofs.Sheet.Words

/-!
# Actions told by stretches

Actions are found from left to right, wherever they start, and what fits nowhere is passed over.
Yet each of them lies in one stretch of the text, between two semicolons or braces, and what it is
depends on this stretch alone: the first colon behind which a value can stand and in front of which
a property stands tells it. So a text can be cut at any semicolon or brace.

## Main definitions

* `Action.stretches` — the stretches of a text that are ended, each with what ends it
* `Action.propertyBefore` — the property in front of a colon
* `Action.ofStretch?` — the action of a stretch

## Main results

* `Action.Starts.find?_isColon`, `Action.Starts.ofStretch?` — an action that starts a stretch is the
  action of the stretch
* `Action.ofStretch?_cons` — otherwise the first character makes no difference
* `Action.readAll_eq_ofStretch?` — the actions of a text are those of its stretches
-/

namespace TriggerSheet.Action

open Text (isBlank trimEnd)

/-- The stretches of a text that a semicolon or a brace ends, each with what ends it. -/
def stretches : List Char → List (List Char × Char)
  | [] => []
  | c :: s =>
    if isValueChar c then (stretches s).modifyHead fun (stretch, ends) => (c :: stretch, ends)
    else ([], c) :: stretches s

/-- The stretches of a text that a semicolon ends. -/
def endedStretches (s : List Char) : List (List Char) :=
  ((stretches s).filter (·.2 == ';')).map Prod.fst

/-- The property at the end of a text: the longest run of its characters that goes up to the blanks
at the end. -/
def propertyBefore (s : List Char) : List Char := (trimEnd s).rtakeWhile isPropertyChar

/-- A place in a stretch holds the colon of an action: something stands behind it, and a property
in front of it. -/
def isColon (s : List Char) (i : ℕ) : Bool :=
  s[i]? == some ':' && decide (i + 1 < s.length) && !(propertyBefore (s.take i)).isEmpty

/-- The action of a stretch, which its first colon tells. -/
def ofStretch? (s : List Char) : Option Action :=
  ((List.range s.length).find? (isColon s)).bind fun i =>
    ofParts? (propertyBefore (s.take i)) (s.drop (i + 1))

/-- An action starts a stretch: a property, blanks, a colon and a value. -/
structure Starts (property blanks value s : List Char) : Prop where
  text : s = property ++ (blanks ++ ':' :: value)
  named : property ≠ []
  letters : ∀ c ∈ property, isPropertyChar c = true
  blank : ∀ c ∈ blanks, isBlank c = true
  some : value ≠ []

variable {s t rest property blanks value : List Char} {c d : Char} {i : ℕ}

/-! ### The property in front of a colon -/

theorem rtakeWhile_cons_of_not {p : Char → Bool} (not : ¬∀ a ∈ c :: s, p a = true) :
    (c :: s).rtakeWhile p = s.rtakeWhile p := by
  rw [List.rtakeWhile, List.reverse_cons, List.takeWhile_append]
  split
  next all =>
    -- The run goes up to the first character, which is not in it.
    have run : s.reverse.takeWhile p = s.reverse := (List.takeWhile_prefix p).eq_of_length all
    have rest : ∀ a ∈ s, p a = true := by simpa using List.takeWhile_eq_self_iff.mp run
    have first : ¬p c = true := fun first => not (List.forall_mem_cons.mpr ⟨first, rest⟩)
    rw [List.takeWhile_cons_of_neg first, List.append_nil, List.rtakeWhile, run]
  next => rfl

/-- The property at the end of a text grows with the text at its front only where it is all of the
text, but for blanks. -/
theorem propertyBefore_cons (c : Char) (s : List Char)
    (grows : propertyBefore (c :: s) ≠ propertyBefore s) :
    ∃ blanks, c :: s = propertyBefore (c :: s) ++ blanks ∧ (∀ a ∈ blanks, isBlank a = true) ∧
      propertyBefore (c :: s) ≠ [] := by
  have ends := Text.trimEnd_cons c s
  split at ends
  next none =>
    -- A blank in front of blanks makes no property.
    refine absurd ?_ grows
    rw [propertyBefore, propertyBefore, ends, none.1]
  next =>
    by_cases all : ∀ a ∈ c :: trimEnd s, isPropertyChar a = true
    · have run : propertyBefore (c :: s) = c :: trimEnd s := by
        rw [propertyBefore, ends]
        exact List.rtakeWhile_eq_self_iff.mpr all
      refine ⟨s.rtakeWhile isBlank, ?_, fun a mem => List.mem_rtakeWhile_imp mem, ?_⟩
      · rw [run, List.cons_append]
        exact congrArg (c :: ·) (List.rdropWhile_append_rtakeWhile ..).symm
      · rw [run]
        exact List.cons_ne_nil _ _
    · refine absurd ?_ grows
      rw [propertyBefore, propertyBefore, ends]
      exact rtakeWhile_cons_of_not all

/-! ### The colon of a stretch -/

namespace Starts

theorem propertyBefore (starts : Starts property blanks value s) :
    propertyBefore (property ++ blanks) = property := by
  have last : trimEnd property = property := by
    refine List.rdropWhile_eq_self_iff.mpr fun some blank => ?_
    have letter := starts.letters _ (List.getLast_mem some)
    exact absurd letter (by simp [isPropertyChar_of_isBlank blank])
  rw [Action.propertyBefore, Text.trimEnd_append_of_blank starts.blank, last]
  exact List.rtakeWhile_eq_self_iff.mpr starts.letters

/-- In front of the colon of an action there is none. -/
theorem colon_notMem (starts : Starts property blanks value s) : ':' ∉ property ++ blanks := by
  rw [List.mem_append, not_or]
  exact ⟨fun mem => absurd (starts.letters _ mem) (by decide),
    fun mem => absurd (starts.blank _ mem) (by decide)⟩

/-- The first colon of a stretch is that of the action that starts it. -/
theorem find?_isColon (starts : Starts property blanks value s) :
    (List.range s.length).find? (isColon s) = .some (property ++ blanks).length := by
  have text : s = (property ++ blanks) ++ ':' :: value := by rw [starts.text, List.append_assoc]
  have more : (property ++ blanks).length + 1 < s.length := by
    have length := congrArg List.length text
    have filled := List.length_pos_iff.mpr starts.some
    rw [List.length_append, List.length_cons] at length
    omega
  refine List.find?_range_eq_some.mpr ⟨?_, List.mem_range.mpr (by omega), fun j early => ?_⟩
  · have colon : s[(property ++ blanks).length]? = .some ':' := by
      rw [text, List.getElem?_append_right (Nat.le_refl _), Nat.sub_self]
      rfl
    have front : s.take (property ++ blanks).length = property ++ blanks := by
      rw [text, List.take_left' rfl]
    simp only [isColon, colon, more, front, starts.propertyBefore]
    simpa using starts.named
  · have other : s[j]? ≠ .some ':' := by
      rw [text, List.getElem?_append_left early]
      exact fun is => starts.colon_notMem (List.mem_of_getElem? is)
    simp [isColon, other]

/-- Where an action starts a stretch, it is the action of the stretch. -/
theorem ofStretch? (starts : Starts property blanks value s) :
    ofStretch? s = ofParts? property value := by
  have text : s = (property ++ blanks) ++ ':' :: value := by rw [starts.text, List.append_assoc]
  have front : s.take (property ++ blanks).length = property ++ blanks := by
    rw [text, List.take_left' rfl]
  have behind : s.drop ((property ++ blanks).length + 1) = value := by
    rw [text, List.drop_length_add_append, List.drop_succ_cons, List.drop_zero]
  rw [Action.ofStretch?, starts.find?_isColon, Option.bind_some, front, starts.propertyBefore,
    behind]

end Starts

/-- Where no action starts a stretch, its first character makes no difference. -/
theorem ofStretch?_cons (c : Char) (s : List Char)
    (none : ∀ property blanks value, ¬Starts property blanks value (c :: s)) :
    ofStretch? (c :: s) = ofStretch? s := by
  -- A property that grew would start an action.
  have same (i : ℕ) (colon : s[i]? = some ':') (more : i + 1 < s.length) :
      propertyBefore (c :: s.take i) = propertyBefore (s.take i) := by
    by_contra grows
    obtain ⟨blanks, all, blank, named⟩ := propertyBefore_cons c (s.take i) grows
    refine none (propertyBefore (c :: s.take i)) blanks (s.drop (i + 1)) ⟨?_, named,
      fun a mem => List.mem_rtakeWhile_imp mem, blank, by simpa using more⟩
    obtain ⟨inside, is⟩ := List.getElem?_eq_some_iff.mp colon
    rw [← List.append_assoc, ← all, ← is, ← List.drop_eq_getElem_cons inside, List.cons_append,
      List.take_append_drop]
  have step (i : ℕ) : isColon (c :: s) (i + 1) = isColon s i := by
    simp only [isColon, List.getElem?_cons_succ, List.length_cons, Nat.add_lt_add_iff_right,
      List.take_succ_cons]
    cases both : s[i]? == some ':' && decide (i + 1 < s.length) with
    | false => rfl
    | true =>
      rw [Bool.and_eq_true, beq_iff_eq, decide_eq_true_eq] at both
      rw [same i both.1 both.2]
  have start : isColon (c :: s) 0 = false := by simp [isColon, propertyBefore, trimEnd]
  have places : (List.range (c :: s).length).find? (isColon (c :: s)) =
      ((List.range s.length).find? (isColon s)).map (· + 1) := by
    rw [List.length_cons, List.range_succ_eq_map, List.find?_cons_of_neg (by simp [start]),
      List.find?_map]
    exact congrArg (fun test => ((List.range s.length).find? test).map Nat.succ) (funext step)
  rw [ofStretch?, ofStretch?, places]
  cases found : (List.range s.length).find? (isColon s) with
  | none => rfl
  | some i =>
    have colon := List.find?_some found
    simp only [isColon, Bool.and_eq_true, beq_iff_eq, decide_eq_true_eq] at colon
    have run := same i colon.1.1 colon.1.2
    rw [Option.map_some, Option.bind_some, Option.bind_some, List.take_succ_cons, run,
      List.drop_succ_cons]

/-! ### Cutting -/

/-- Induction along the ends of the stretches of a text. -/
theorem stretch_induction {P : List Char → Prop}
    (unended : ∀ s, (∀ c ∈ s, isValueChar c = true) → P s)
    (cut : ∀ s d rest, (∀ c ∈ s, isValueChar c = true) → isValueChar d = false → P rest →
      P (s ++ d :: rest)) (s : List Char) : P s := by
  -- Of the stretch that is being passed, some characters may be behind us.
  suffices all : ∀ passed, (∀ c ∈ passed, isValueChar c = true) → P (passed ++ s) from
    all [] fun c mem => absurd mem List.not_mem_nil
  induction s with
  | nil =>
    intro passed values
    rw [List.append_nil]
    exact unended passed values
  | cons c s ih =>
    intro passed values
    cases value : isValueChar c with
    | false => exact cut passed c s values value (ih [] fun c mem => absurd mem List.not_mem_nil)
    | true =>
      have more := ih (passed ++ [c])
        (List.forall_mem_append.mpr ⟨values, List.forall_mem_singleton.mpr value⟩)
      rwa [List.append_assoc, List.singleton_append] at more

theorem stretches_of_unended (values : ∀ c ∈ s, isValueChar c = true) : stretches s = [] := by
  induction s with
  | nil => rfl
  | cons c s ih =>
    obtain ⟨value, values⟩ := List.forall_mem_cons.mp values
    rw [stretches, if_pos value, ih values, List.modifyHead_nil]

theorem stretches_cut (values : ∀ c ∈ s, isValueChar c = true) (ends : isValueChar d = false)
    (rest : List Char) : stretches (s ++ d :: rest) = (s, d) :: stretches rest := by
  induction s with
  | nil => rw [List.nil_append, stretches, if_neg (by simp [ends])]
  | cons c s ih =>
    obtain ⟨value, values⟩ := List.forall_mem_cons.mp values
    rw [List.cons_append, stretches, if_pos value, ih values, List.modifyHead_cons]

theorem endedStretches_cut (values : ∀ c ∈ s, isValueChar c = true)
    (ends : isValueChar d = false) (rest : List Char) :
    endedStretches (s ++ d :: rest) = (if d = ';' then [s] else []) ++ endedStretches rest := by
  rw [endedStretches, stretches_cut values ends, List.filter_cons]
  by_cases semicolon : d = ';'
  · rw [if_pos (by simpa using semicolon), if_pos semicolon]
    rfl
  · rw [if_neg (by simpa using semicolon), if_neg semicolon]
    rfl

/-- A text is cut into stretches at each of their ends. -/
theorem stretches_append (ends : isValueChar d = false) (s rest : List Char) :
    stretches (s ++ d :: rest) = stretches (s ++ [d]) ++ stretches rest := by
  induction s using stretch_induction with
  | unended s values =>
    rw [stretches_cut values ends, stretches_cut values ends]
    rfl
  | cut s e more values ends' ih =>
    rw [List.append_assoc, List.cons_append, stretches_cut values ends', ih, List.append_assoc,
      List.cons_append, stretches_cut values ends', List.cons_append]

/-- An action that starts a text lies in its first stretch, which a semicolon ends. -/
theorem Starts.of_readAt? (values : ∀ c ∈ s, isValueChar c = true) (ends : isValueChar d = false)
    (read : readAt? (s ++ d :: rest) = .some (property, value, t)) :
    d = ';' ∧ rest = t ∧ ∃ blanks, Starts property blanks value s := by
  obtain ⟨⟨blanks, text, blank⟩, named, letters, some, chars⟩ := readAt?_eq_some read
  have values' : ∀ c ∈ property ++ (blanks ++ ':' :: value), isValueChar c = true := by
    simp only [List.forall_mem_append, List.forall_mem_cons]
    exact ⟨fun c mem => isValueChar_of_isPropertyChar (letters c mem),
      fun c mem => isValueChar_of_isBlank (blank c mem), by decide, chars⟩
  have whole : s ++ d :: rest = (property ++ (blanks ++ ':' :: value)) ++ ';' :: t := by
    simpa using text
  have ended : isValueChar ';' = false := by decide
  have stretch := congrArg (List.takeWhile isValueChar) whole
  rw [Text.takeWhile_append_cons_of_pos ends values,
    Text.takeWhile_append_cons_of_pos ended values'] at stretch
  have behind := congrArg (List.dropWhile isValueChar) whole
  rw [Text.dropWhile_append_cons_of_pos ends values,
    Text.dropWhile_append_cons_of_pos ended values'] at behind
  obtain ⟨rfl, rfl⟩ := List.cons.inj behind
  exact ⟨rfl, rfl, blanks, stretch, named, letters, blank, some⟩

theorem Starts.readAt? (starts : Starts property blanks value s)
    (values : ∀ c ∈ s, isValueChar c = true) (rest : List Char) :
    readAt? (s ++ ';' :: rest) = .some (property, value, rest) := by
  have chars : ∀ c ∈ value, isValueChar c = true := by
    intro c mem
    exact values c (by simp [starts.text, mem])
  rw [starts.text, List.append_assoc, List.append_assoc]
  exact readAt?_append starts.letters starts.named starts.blank chars starts.some rest

/-- Nothing that is not ended is an action. -/
theorem readAll_of_unended (values : ∀ c ∈ s, isValueChar c = true) : readAll s = [] := by
  induction s with
  | nil => exact readAll_nil
  | cons c s ih =>
    have none : Action.readAt? (c :: s) = none := by
      refine Option.eq_none_iff_forall_ne_some.mpr fun (property, value, rest) read => ?_
      obtain ⟨⟨blanks, text, -⟩, -⟩ := readAt?_eq_some read
      exact absurd (values ';' (by simp [text])) (by decide)
    rw [readAll_cons none]
    exact ih (List.forall_mem_cons.mp values).2

/-- The first stretch gives its action, if a semicolon ends it, and nothing else of it is read. -/
theorem readAll_cut (values : ∀ c ∈ s, isValueChar c = true) (ends : isValueChar d = false)
    (rest : List Char) :
    readAll (s ++ d :: rest) =
      (if d = ';' then (ofStretch? s).toList else []) ++ readAll rest := by
  induction s with
  | nil =>
    have other : isPropertyChar d = false := by
      by_contra letter
      have value := isValueChar_of_isPropertyChar (Bool.not_eq_false _ ▸ letter)
      exact absurd value (by simp [ends])
    rw [List.nil_append, readAll_cons_of_not_isPropertyChar other]
    split <;> rfl
  | cons c s ih =>
    cases read : Action.readAt? (c :: s ++ d :: rest) with
    | some parts =>
      obtain ⟨property, value, t⟩ := parts
      obtain ⟨rfl, rfl, blanks, starts⟩ := Starts.of_readAt? values ends read
      rw [readAll_of_readAt? read, if_pos rfl, starts.ofStretch?]
    | none =>
      have skip : readAll (c :: s ++ d :: rest) = readAll (s ++ d :: rest) := readAll_cons read
      rw [skip, ih (List.forall_mem_cons.mp values).2]
      split
      next semicolon =>
        subst semicolon
        have none (property blanks value : List Char) :
            ¬Starts property blanks value (c :: s) := by
          intro starts
          have first := starts.readAt? values rest
          rw [read] at first
          exact absurd first (by simp)
        rw [ofStretch?_cons c s none]
      next => rfl

/-- The actions of a text are those of the stretches that a semicolon ends. So the text can be cut
at any semicolon or brace, and its parts be read apart. -/
theorem readAll_eq_ofStretch? (s : List Char) :
    readAll s = (endedStretches s).filterMap ofStretch? ∧
      ∀ before d behind, s = before ++ d :: behind → d = ';' ∨ d = '{' ∨ d = '}' →
        readAll s = readAll (before ++ [d]) ++ readAll behind := by
  have actions (s : List Char) : readAll s = (endedStretches s).filterMap ofStretch? := by
    induction s using stretch_induction with
    | unended s values =>
      rw [readAll_of_unended values, endedStretches, stretches_of_unended values]
      rfl
    | cut s d rest values ends ih =>
      rw [readAll_cut values ends, ih, endedStretches_cut values ends, List.filterMap_append]
      split
      · rw [List.filterMap_cons]
        cases ofStretch? s <;> rfl
      · rfl
  refine ⟨actions s, fun before d behind text delimiter => ?_⟩
  rw [text, actions, actions, actions, endedStretches, endedStretches, endedStretches,
    stretches_append (isValueChar_eq_false_iff.mpr delimiter), List.filter_append, List.map_append,
    List.filterMap_append]

/-- A body with an action, a colon with nothing in front of it, and a block that holds the same. -/
def crowdedBody : List Char := "move : up;\x7b: é:x:y ;a-b:;\x7dc::;d:e".toList

theorem readAll_crowdedBody :
    readAll crowdedBody = [⟨"move", "up"⟩, ⟨"x", "y"⟩, ⟨"c", ":"⟩] ∧
      readAll crowdedBody =
        readAll "move : up;\x7b".toList ++ readAll ": é:x:y ;a-b:;\x7dc::;d:e".toList := by
  obtain ⟨actions, cut⟩ := readAll_eq_ofStretch? crowdedBody
  refine ⟨actions.trans (by decide), ?_⟩
  exact cut "move : up;".toList '{' ": é:x:y ;a-b:;\x7dc::;d:e".toList (by decide) (.inr (.inl rfl))

end TriggerSheet.Action
