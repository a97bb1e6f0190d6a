import TriggerSheet.Effect.Call
import TriggerSheet.Proofs.Text.Pieces

/-!
# The canonical form of a value

The calls of a value, written one behind the other with commas between them, are read again as the
same calls. Blanks are lost in writing, and so are parentheses with nothing between them. Neither
opens or closes anything for a comma behind it, so no comma becomes top-level or ceases to be.

## Main definitions

* `Call.Fits` — a text that stands for a piece of a value

## Main results

* `Call.segmentsOf_intercalate` — pieces that are written in a row are found again
* `Call.segments_split` — the pieces of a value are exact, and stable
* `Call.ofValue_text` — the calls of a value are read again from their written forms
-/

namespace TriggerSheet.Call

open Text (IsTrimmed Whole Parted parenDepth marks isMark trim trim_eq_self)

variable {s t p name inner blanks : List Char} {c : Call}

/-! ### Pieces in a row -/

/-- A trimmed text that is not empty. -/
structure Stands (p : List Char) : Prop where
  trimmed : IsTrimmed p
  ne_nil : p ≠ []

theorem segmentsOf_of_whole (whole : Whole 0 p) (stands : Stands p) : segmentsOf p = [p] := by
  have trimmed : trim p = p := stands.trimmed
  simp [segmentsOf, Text.topLevelPieces_of_whole whole, trimmed, stands.ne_nil]

/-- A closed piece is cut off at the comma behind it. -/
theorem segmentsOf_cut (whole : Whole 0 p) (closed : parenDepth 0 p = 0) (stands : Stands p)
    (rest : List Char) : segmentsOf (p ++ ',' :: rest) = p :: segmentsOf rest := by
  have trimmed : trim p = p := stands.trimmed
  simp [segmentsOf, Text.topLevelPieces_cut whole closed, trimmed, stands.ne_nil]

/-- A space in front of a value makes no difference. -/
theorem segmentsOf_space (s : List Char) : segmentsOf (' ' :: s) = segmentsOf s := by
  have first : Text.topLevelPieces (' ' :: s) = (Text.topLevelPieces s).modifyHead (' ' :: ·) :=
    Text.topLevelPiecesFrom_taken 0 [' '] s
  have blank (piece : List Char) : trim (' ' :: piece) = trim piece :=
    congrArg Text.trimEnd (List.dropWhile_cons_of_pos (by decide))
  rw [segmentsOf, first]
  cases pieces : Text.topLevelPieces s <;> simp [segmentsOf, pieces, blank]

/-- Pieces that are written in a row are found again: each but the last is closed, so the comma
behind it is top-level. -/
theorem segmentsOf_intercalate {pieces : List (List Char)} (parted : Parted pieces)
    (stand : ∀ p ∈ pieces, Stands p) : segmentsOf ([',', ' '].intercalate pieces) = pieces := by
  induction pieces with
  | nil => rfl
  | cons p rest ih =>
    have whole := parted.whole p (List.mem_cons_self ..)
    have stands := stand p (List.mem_cons_self ..)
    obtain ⟨closed, later⟩ := List.pairwise_cons.mp parted.closed
    have again := ih ⟨fun q mem => parted.whole q (List.mem_cons_of_mem _ mem), later⟩
      fun q mem => stand q (List.mem_cons_of_mem _ mem)
    cases rest with
    | nil => simpa using segmentsOf_of_whole whole stands
    | cons q rest =>
      rw [List.intercalate_cons_cons, List.append_assoc, List.cons_append, List.cons_append,
        List.nil_append, segmentsOf_cut whole (closed q (List.mem_cons_self ..)) stands,
        segmentsOf_space, again]

theorem stands_of_mem_segmentsOf (mem : p ∈ segmentsOf s) : Stands p := by
  obtain ⟨mem, filled⟩ := List.mem_filter.mp mem
  obtain ⟨piece, -, rfl⟩ := List.mem_map.mp mem
  exact ⟨Text.trim_trim piece, by simpa using filled⟩

/-- The pieces of a value are closed, but for the last, and none has a top-level comma: blanks and
what is left out make no difference. -/
theorem parted_segmentsOf (s : List Char) : Parted (segmentsOf s) := by
  have parted := Text.parted_topLevelPieces s
  have trimmed (p : List Char) : parenDepth 0 (trim p) = parenDepth 0 p :=
    Text.parenDepth_of_marks 0 (Text.marks_trim p)
  refine ⟨fun p mem => ?_, List.Pairwise.filter _ (List.pairwise_map.mpr ?_)⟩
  · obtain ⟨piece, there, rfl⟩ := List.mem_map.mp (List.mem_filter.mp mem).1
    exact (parted.whole piece there).of_marks (Text.marks_trim piece)
  · exact parted.closed.imp fun closed => (trimmed _).trans closed

/-! ### Values as strings -/

theorem toList_intercalate (parts : List String) :
    (", ".intercalate parts).toList = [',', ' '].intercalate (parts.map String.toList) :=
  String.toList_intercalate

/-- The pieces of a value are what stands between its top-level commas, trimmed and without the
empty ones. Each of them is its own only piece, and written in a row they are found again. -/
theorem segments_split (value : String) :
    segments value =
        (((Text.between value.toList (Text.topLevelCommas value.toList)).map trim).filter
          fun piece => !piece.isEmpty).map String.ofList ∧
      (∀ part ∈ segments value, segments part = [part]) ∧
      segments (", ".intercalate (segments value)) = segments value := by
  have parted := parted_segmentsOf value.toList
  refine ⟨?_, fun part mem => ?_, ?_⟩
  · rw [← Text.topLevelPieces_eq_between]
    rfl
  · obtain ⟨p, there, rfl⟩ := List.mem_map.mp mem
    rw [segments, String.toList_ofList,
      segmentsOf_of_whole (parted.whole p there) (stands_of_mem_segmentsOf there)]
    rfl
  · have texts : (segments value).map String.toList = segmentsOf value.toList := by
      simp [segments, Function.comp_def]
    rw [segments, toList_intercalate, texts,
      segmentsOf_intercalate parted fun p => stands_of_mem_segmentsOf]
    rfl

/-- A comma between parentheses splits nothing, and a parenthesis that closes nothing hides none. -/
theorem segments_split_strayParenthesis :
    "f(1, 2))" ∈ segments " f(1, 2)) ,, g, h(3, 4" ∧ segments "f(1, 2))" = ["f(1, 2))"] :=
  have mem : "f(1, 2))" ∈ segments " f(1, 2)) ,, g, h(3, 4" := by decide
  ⟨mem, (segments_split _).2.1 _ mem⟩

/-! ### Calls -/

/-- A text that can stand for a piece: it is read as the same call, it has no top-level comma, and
it is closed if the piece is. -/
structure Fits (p t : List Char) : Prop where
  stands : Stands t
  whole : Whole 0 t
  closed : parenDepth 0 p = 0 → parenDepth 0 t = 0
  reads : ofTrimmed t = ofTrimmed p

theorem toNat_of_isNameChar {a : Char} (is : isNameChar a = true) :
    (65 ≤ a.toNat ∧ a.toNat ≤ 90) ∨ (97 ≤ a.toNat ∧ a.toNat ≤ 122) ∨
      (48 ≤ a.toNat ∧ a.toNat ≤ 57) ∨ a.toNat = 45 ∨ a.toNat = 95 := by
  have upper : a.isUpper = decide (65 ≤ a.toNat ∧ a.toNat ≤ 90) := rfl
  have lower : a.isLower = (decide (97 ≤ a.toNat) && decide (a.toNat ≤ 122)) := rfl
  have digit : a.isDigit = (decide (48 ≤ a.toNat) && decide (a.toNat ≤ 57)) := rfl
  have name : isNameChar a = (a.isUpper || a.isLower || a.isDigit || a == '-' || a == '_') := rfl
  simp only [name, upper, lower, digit, Bool.or_eq_true, Bool.and_eq_true, decide_eq_true_eq,
    beq_iff_eq] at is
  rcases is with (((upper | lower) | digit) | rfl) | rfl
  · exact .inl upper
  · exact .inr (.inl lower)
  · exact .inr (.inr (.inl digit))
  · decide
  · decide

/-- The characters of a name are not blank. -/
theorem not_isBlank_of_isNameChar {a : Char} (is : isNameChar a = true) :
    Text.isBlank a = false := by
  have code := toNat_of_isNameChar is
  simp [Text.isBlank]
  omega

/-- Nor are they commas or parentheses. -/
theorem not_isMark_of_isNameChar {a : Char} (is : isNameChar a = true) : isMark a = false := by
  by_contra mark
  simp only [Bool.not_eq_false, isMark, Bool.or_eq_true, decide_eq_true_eq] at mark
  rcases mark with (rfl | rfl) | rfl <;> cases is

/-- A name alone is read as a call without an argument. -/
theorem read?_name (chars : ∀ a ∈ name, isNameChar a = true) (filled : name ≠ []) :
    read? name = some ⟨String.ofList name, none⟩ := by
  have taken : name.takeWhile isNameChar = name := List.takeWhile_eq_self_iff.mpr chars
  have dropped : name.dropWhile isNameChar = [] := List.dropWhile_eq_nil_iff.mpr chars
  simp [read?, taken, dropped, Text.trimStart, filled]

/-- A name with parentheses is read as a call with what stands between them. -/
theorem read?_parenthesized (chars : ∀ a ∈ name, isNameChar a = true) (filled : name ≠ [])
    (inner : List Char) :
    read? (name ++ '(' :: (inner ++ [')'])) = some ⟨String.ofList name, argumentOf inner⟩ := by
  have taken : (name ++ '(' :: (inner ++ [')'])).takeWhile isNameChar = name := by
    rw [List.takeWhile_append_of_pos chars, List.takeWhile_cons_of_neg (by decide),
      List.append_nil]
  have dropped : (name ++ '(' :: (inner ++ [')'])).dropWhile isNameChar =
      '(' :: (inner ++ [')']) := by
    rw [List.dropWhile_append_of_pos chars, List.dropWhile_cons_of_neg (by decide)]
  have opens : Text.trimStart ('(' :: (inner ++ [')'])) = '(' :: (inner ++ [')']) :=
    Text.trimStart_of_head? fun a first => Option.some.inj first ▸ by decide
  simp [read?, taken, dropped, opens, parenthesized?, filled]

theorem parenthesized?_eq_some (between : parenthesized? s = some inner) :
    s = '(' :: (inner ++ [')']) := by
  unfold parenthesized? at between
  split at between
  next rest =>
    split at between
    next last =>
      obtain rfl := Option.some.inj between
      exact congrArg _ (List.dropLast_append_getLast? _ last).symm
    · cases between
  · cases between

/-- What fits the form of a call is a name, and then nothing but blanks, or parentheses around
something behind the blanks. -/
theorem read?_eq_some (reads : read? p = some c) :
    ∃ name blanks, (∀ a ∈ name, isNameChar a = true) ∧ name ≠ [] ∧
      (∀ a ∈ blanks, Text.isBlank a = true) ∧ c.name = String.ofList name ∧
      ((p = name ++ blanks ∧ c.argument = none) ∨
        ∃ inner, p = name ++ (blanks ++ '(' :: (inner ++ [')'])) ∧
          c.argument = argumentOf inner) := by
  have split : p = p.takeWhile isNameChar ++ ((p.dropWhile isNameChar).takeWhile Text.isBlank ++
      Text.trimStart (p.dropWhile isNameChar)) := by
    rw [Text.trimStart, List.takeWhile_append_dropWhile, List.takeWhile_append_dropWhile]
  have chars : ∀ a ∈ p.takeWhile isNameChar, isNameChar a = true :=
    List.all_eq_true.mp List.all_takeWhile
  have blank : ∀ a ∈ (p.dropWhile isNameChar).takeWhile Text.isBlank, Text.isBlank a = true :=
    List.all_eq_true.mp List.all_takeWhile
  simp only [read?] at reads
  split at reads
  · cases reads
  next filled =>
    have filled : p.takeWhile isNameChar ≠ [] := fun none => filled (by rw [none]; rfl)
    refine ⟨_, _, chars, filled, blank, ?_⟩
    split at reads
    next none =>
      obtain rfl := Option.some.inj reads
      rw [none, List.append_nil] at split
      exact ⟨rfl, .inl ⟨split, rfl⟩⟩
    next rest _ =>
      obtain ⟨inner, between, rfl⟩ := Option.map_eq_some_iff.mp reads
      refine ⟨rfl, .inr ⟨inner, ?_, rfl⟩⟩
      rw [← parenthesized?_eq_some between]
      exact split

theorem head?_name (chars : ∀ a ∈ name, isNameChar a = true) (filled : name ≠ [])
    (rest : List Char) : ∀ a ∈ (name ++ rest).head?, Text.isBlank a = false := by
  cases name with
  | nil => exact absurd rfl filled
  | cons b name =>
    intro a is
    obtain rfl := Option.some.inj is
    exact not_isBlank_of_isNameChar (chars b (List.mem_cons_self ..))

/-- A name can stand for a piece that is read as the call of this name. -/
theorem fits_name (chars : ∀ a ∈ name, isNameChar a = true) (filled : name ≠ [])
    (is : ofTrimmed p = ⟨String.ofList name, none⟩) : Fits p name := by
  have unmarked : marks name = marks [] :=
    Text.marks_eq_nil fun a mem => not_isMark_of_isNameChar (chars a mem)
  have trimmed : IsTrimmed name :=
    trim_eq_self (by simpa using head?_name chars filled []) fun a last =>
      not_isBlank_of_isNameChar (chars a (List.mem_of_getLast? last))
  refine ⟨⟨trimmed, filled⟩, Whole.of_marks (s := []) trivial unmarked,
    fun _ => Text.parenDepth_of_marks 0 unmarked, ?_⟩
  rw [is, ofTrimmed, read?_name chars filled]
  rfl

/-- So can a name with an argument: it lacks nothing but blanks of the piece. -/
theorem fits_parenthesized (chars : ∀ a ∈ name, isNameChar a = true) (filled : name ≠ [])
    (blank : ∀ a ∈ blanks, Text.isBlank a = true)
    (whole : Whole 0 (name ++ (blanks ++ '(' :: (inner ++ [')']))))
    (is : ofTrimmed (name ++ (blanks ++ '(' :: (inner ++ [')']))) =
      ⟨String.ofList name, argumentOf (trim inner)⟩) :
    Fits (name ++ (blanks ++ '(' :: (inner ++ [')']))) (name ++ '(' :: (trim inner ++ [')'])) := by
  have same : marks (name ++ '(' :: (trim inner ++ [')'])) =
      marks (name ++ (blanks ++ '(' :: (inner ++ [')']))) := by
    have none : marks blanks = [] :=
      Text.marks_eq_nil fun a mem => Text.not_isMark_of_isBlank (blank a mem)
    have cons (s : List Char) : marks ('(' :: s) = '(' :: marks s := rfl
    simp only [Text.marks_append, cons, none, Text.marks_trim, List.nil_append]
  have last : ∀ a ∈ (name ++ '(' :: (trim inner ++ [')'])).getLast?, Text.isBlank a = false := by
    rw [← List.cons_append, ← List.append_assoc, List.getLast?_concat]
    exact fun a is => Option.some.inj is ▸ by decide
  refine ⟨⟨trim_eq_self (head?_name chars filled _) last, by simp⟩, whole.of_marks same,
    fun closed => (Text.parenDepth_of_marks 0 same).trans closed, ?_⟩
  rw [is, ofTrimmed, read?_parenthesized chars filled]
  rfl

/-- The written form of the call of a piece can stand for the piece. -/
theorem fits_text (stands : Stands p) (whole : Whole 0 p) : Fits p (ofTrimmed p).text.toList := by
  cases reads : read? p with
  | none =>
    -- A piece that does not fit the form of a call is the name of its call.
    have call : ofTrimmed p = ⟨String.ofList p, none⟩ := by rw [ofTrimmed, reads]; rfl
    have text : (ofTrimmed p).text.toList = p := by rw [call]; exact String.toList_ofList
    rw [text]
    exact ⟨stands, whole, id, rfl⟩
  | some c =>
    obtain ⟨name, blanks, chars, filled, blank, named, form⟩ := read?_eq_some reads
    have is : ofTrimmed p = ⟨String.ofList name, c.argument⟩ := by
      rw [ofTrimmed, reads, ← named]
      rfl
    rw [is]
    rcases form with ⟨-, none⟩ | ⟨inner, rfl, argument⟩
    · rw [none] at is ⊢
      rw [Call.text, String.toList_ofList]
      exact fits_name chars filled is
    have again : argumentOf (trim inner) = c.argument := by
      rw [argumentOf, Text.trim_trim inner, argument, argumentOf]
    cases given : c.argument with
    | none =>
      rw [given] at is
      rw [Call.text, String.toList_ofList]
      exact fits_name chars filled is
    | some written =>
      have inside : written.toList = trim inner := by
        rw [given, argumentOf] at argument
        split at argument
        · cases argument
        · rw [Option.some.inj argument, String.toList_ofList]
      have text : (Call.text ⟨String.ofList name, some written⟩).toList =
          name ++ '(' :: (trim inner ++ [')']) := by simp [Call.text, inside]
      rw [text]
      exact fits_parenthesized chars filled blank whole (again ▸ is)

/-- The calls of a value, written one behind the other, are read again as the same calls. -/
theorem ofValue_text (value : String) :
    ofValue (", ".intercalate ((ofValue value).map text)) = ofValue value := by
  have parted := parted_segmentsOf value.toList
  have fits (p : List Char) (mem : p ∈ segmentsOf value.toList) :
      Fits p (ofTrimmed p).text.toList :=
    fits_text (stands_of_mem_segmentsOf mem) (parted.whole p mem)
  have texts : ((ofValue value).map text).map String.toList =
      (segmentsOf value.toList).map fun p => (ofTrimmed p).text.toList := by
    simp [ofValue, Function.comp_def]
  have written : Parted (((ofValue value).map text).map String.toList) := by
    rw [texts]
    refine ⟨?_, List.pairwise_map.mpr (parted.closed.imp_of_mem fun mem _ closed => ?_)⟩
    · exact List.forall_mem_map.mpr fun p mem => (fits p mem).whole
    · exact (fits _ mem).closed closed
  rw [ofValue, toList_intercalate, segmentsOf_intercalate written, texts, List.map_map, ofValue]
  · exact List.map_congr_left fun p mem => (fits p mem).reads
  · rw [texts]
    exact List.forall_mem_map.mpr fun p mem => (fits p mem).stands

end TriggerSheet.Call
