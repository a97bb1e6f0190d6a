import TriggerSheet.Effect.Call
import TriggerSheet.Effect.FadeColor
import TriggerSheet.Effect.Scale
import TriggerSheet.Effect.Shake
import TriggerSheet.Effect.Slide
import TriggerSheet.Proofs.Text.Pieces

/-!
# Slots keep to their places

The slots of an argument are the stretches between its top-level commas, the empty ones too. So
nothing that stands in one slot can move another: a field of an effect's arguments is read from the
stretch at its place, whatever the other stretches hold and however many there are.

## Main definitions

* `Slots.pieceAt` — what stands at a place between the top-level commas of an argument
* `Slots.ReadFrom` — a field depends on what stands at one place alone

## Main results

* `Slots.at?_ofText` — a slot is what stands at its place
* `Slots.ofText_intercalate` — slots that are written with commas between them are found again
* `Slots.slots_positional` — the calls of a value, the fields of every effect and the written form
-/

namespace TriggerSheet.Slots

open Text (IsTrimmed Parted between isBlank parenDepth topLevelCommas topLevelPieces trim)

variable {text : String} {i : ℕ}

/-- What stands at a place between the top-level commas of an argument, trimmed: the empty text
where the argument has no such place. -/
def pieceAt (argument : Option String) (i : ℕ) : List Char :=
  let pieces := argument.elim [] fun text => between text.toList (topLevelCommas text.toList)
  (pieces[i]?.map trim).getD []

/-- A field of what is read from an argument depends on what stands at one place alone. -/
def ReadFrom {α : Type} (i : ℕ) (field : Option String → α) : Prop :=
  ∀ a b, pieceAt a i = pieceAt b i → field a = field b

/-! ### Slots as pieces -/

/-- Nothing but blanks is one piece, which is empty when it is trimmed. -/
theorem topLevelPieces_of_blank (blank : text.toList.all isBlank = true) :
    (topLevelPieces text.toList).map trim = [[]] := by
  have blank : ∀ c ∈ text.toList, isBlank c = true := List.all_eq_true.mp blank
  have unmarked : Text.marks text.toList = Text.marks [] :=
    Text.marks_eq_nil fun c mem => Text.not_isMark_of_isBlank (blank c mem)
  have whole : Text.Whole 0 text.toList := Text.Whole.of_marks (s := []) trivial unmarked
  rw [Text.topLevelPieces_of_whole whole, List.map_singleton, Text.trim_of_blank blank]

theorem pieceAt_some (text : String) (i : ℕ) :
    pieceAt (some text) i = ((topLevelPieces text.toList).map trim)[i]?.getD [] := by
  rw [List.getElem?_map, Text.topLevelPieces_eq_between]
  rfl

/-- A slot is what stands at its place, if that is anything. -/
theorem at?_ofText (argument : Option String) (i : ℕ) :
    (ofText argument).at? i =
      if (pieceAt argument i).isEmpty then none else some (String.ofList (pieceAt argument i)) := by
  cases argument with
  | none => simp [ofText, at?, pieceAt]
  | some text =>
    rw [pieceAt_some]
    by_cases blank : text.toList.all isBlank = true
    · -- A blank argument has no slots, and one empty piece.
      have empty : ([[]] : List (List Char))[i]?.getD [] = [] := by cases i <;> simp
      rw [topLevelPieces_of_blank blank, empty]
      simp [ofText, at?, blank]
    · rw [ofText, if_neg blank, at?, List.getElem?_map, List.getElem?_map]
      cases (topLevelPieces text.toList)[i]? with
      | none => simp
      | some piece => by_cases none : trim piece = [] <;> simp [none]

/-- What is read from one slot depends on what stands at its place alone. -/
theorem readFrom_at? {α : Type} (i : ℕ) (field : Option String → α) :
    ReadFrom i fun argument => field ((ofText argument).at? i) := by
  intro a b same
  dsimp only
  rw [at?_ofText, at?_ofText, same]

theorem isEmpty_ofList (s : List Char) : (String.ofList s).isEmpty = s.isEmpty := by
  rw [Bool.eq_iff_iff, String.isEmpty_iff, List.isEmpty_iff, ← String.toList_eq_nil_iff,
    String.toList_ofList]

/-- The pieces of a value are the slots that are not empty. -/
theorem segments_eq_filter (text : String) :
    Call.segments text = (ofText (some text)).filter fun slot => !slot.isEmpty := by
  by_cases blank : text.toList.all isBlank = true
  · rw [Call.segments, Call.segmentsOf, topLevelPieces_of_blank blank]
    simp [ofText, blank]
  · rw [Call.segments, Call.segmentsOf, ofText, if_neg blank]
    simp [List.filter_map, Function.comp_def, isEmpty_ofList]

/-! ### Slots in a row -/

/-- Trimmed texts without a top-level comma, written with commas between them, are the slots of
what is written. The one empty text alone is not: it is no argument at all. -/
theorem ofText_intercalate {slots : List String} (parted : Parted (slots.map String.toList))
    (trimmed : ∀ slot ∈ slots, IsTrimmed slot.toList) (some : slots ≠ []) (filled : slots ≠ [""]) :
    ofText (.some (",".intercalate slots)) = slots := by
  have pieces : topLevelPieces (",".intercalate slots).toList = slots.map String.toList := by
    have again := Text.topLevelPieces_intercalate parted (by simpa using some)
    rwa [String.toList_intercalate]
  have same : (slots.map String.toList).map trim = slots.map String.toList := by
    rw [List.map_map]
    exact List.map_congr_left fun slot mem => trimmed slot mem
  have written : ¬ (",".intercalate slots).toList.all isBlank = true := by
    intro blank
    -- The slots would come to one empty text.
    have empty := topLevelPieces_of_blank blank
    rw [pieces, same] at empty
    apply filled
    apply List.map_injective_iff.mpr fun _ _ => String.toList_inj.mp
    exact empty
  rw [ofText, if_neg written, pieces, List.map_map]
  calc slots.map ((fun piece => String.ofList (trim piece)) ∘ String.toList)
      = ((slots.map String.toList).map trim).map String.ofList := by simp
    _ = slots := by rw [same]; simp [Function.comp_def]

/-- Slots keep to their places. The pieces of a value are the slots that are not empty; every field
of an effect's arguments is read from the piece at its place, whatever stands at the others; and
slots that are written with commas between them are found again. -/
theorem slots_positional :
    (∀ text, Call.segments text = (ofText (some text)).filter fun slot => !slot.isEmpty) ∧
    (ReadFrom 0 (fun argument => (SlideArgs.read argument).1.direction) ∧
      ReadFrom 0 (fun argument => (SlideArgs.read argument).2) ∧
      ReadFrom 1 (fun argument => (SlideArgs.read argument).1.distance) ∧
      ReadFrom 2 (fun argument => (SlideArgs.read argument).1.duration)) ∧
    (ReadFrom 0 (fun argument => (ScaleArgs.read argument).1.scale) ∧
      ReadFrom 0 (fun argument => (ScaleArgs.read argument).2) ∧
      ReadFrom 1 (fun argument => (ScaleArgs.read argument).1.duration)) ∧
    (ReadFrom 0 (fun argument => (ShakeArgs.read argument).style) ∧
      ReadFrom 1 (fun argument => (ShakeArgs.read argument).intensity) ∧
      ReadFrom 2 (fun argument => (ShakeArgs.read argument).duration)) ∧
    (ReadFrom 0 (fun argument => (FadeColorArgs.read argument).source) ∧
      ReadFrom 1 (fun argument => (FadeColorArgs.read argument).target) ∧
      ReadFrom 2 (fun argument => (FadeColorArgs.read argument).duration)) ∧
    ∀ slots : List String, slots ≠ [] → slots ≠ [""] →
      (∀ slot ∈ slots, IsTrimmed slot.toList ∧ topLevelCommas slot.toList = [] ∧
        parenDepth 0 slot.toList = 0) →
      ofText (some (",".intercalate slots)) = slots := by
  refine ⟨segments_eq_filter, ⟨?_, ?_, ?_, ?_⟩, ⟨?_, ?_, ?_⟩, ⟨?_, ?_, ?_⟩, ⟨?_, ?_, ?_⟩, ?_⟩
  · exact readFrom_at? 0 fun slot => (SlideArgs.readDirection slot).1
  · exact readFrom_at? 0 fun slot => (SlideArgs.readDirection slot).2
  · exact readFrom_at? 1 (·.getD "30px")
  · exact readFrom_at? 2 (Duration.parseOr · Duration.standard)
  · exact readFrom_at? 0 fun slot => (ScaleArgs.readScale slot).1
  · exact readFrom_at? 0 fun slot => (ScaleArgs.readScale slot).2
  · exact readFrom_at? 1 (Duration.parseOr · (Duration.ofMillis 300))
  · exact readFrom_at? 0 ShakeStyle.ofSlot
  · exact readFrom_at? 1 (·.getD "10px")
  · exact readFrom_at? 2 (Duration.parseOr · Duration.standard)
  · exact readFrom_at? 0 (·.getD "#000000")
  · exact readFrom_at? 1 (·.getD "#ffffff")
  · exact readFrom_at? 2 (Duration.parseOr · (Duration.ofMillis 1000))
  · intro slots some filled each
    have parted : Parted (slots.map String.toList) := by
      refine ⟨List.forall_mem_map.mpr fun slot mem => ?_, List.pairwise_map.mpr ?_⟩
      · exact Text.topLevelCommas_eq_nil_iff.mp (each slot mem).2.1
      · exact List.pairwise_of_forall_mem_list fun slot mem _ _ => (each slot mem).2.2
    exact ofText_intercalate parted (fun slot mem => (each slot mem).1) some filled

/-- A distance behind a direction that cannot be read and hides no comma. -/
def strayDistance : String := "up), translate(1px, 2px), soon"

/-- The same distance behind an empty direction, with a nested duration and one slot too many. -/
def nestedDistance : String := ", translate(1px, 2px) ,(1s, 2s), left"

/-- The distance is the same, and an empty slot between two others keeps its place. -/
theorem slots_positional_distance :
    pieceAt (some strayDistance) 1 = pieceAt (some nestedDistance) 1 ∧
      (SlideArgs.read strayDistance).1.distance = (SlideArgs.read nestedDistance).1.distance ∧
      (∀ slot ∈ ["f(1, 2)", "", "g"], IsTrimmed slot.toList ∧ topLevelCommas slot.toList = [] ∧
        parenDepth 0 slot.toList = 0) ∧
      ofText (some (",".intercalate ["f(1, 2)", "", "g"])) = ["f(1, 2)", "", "g"] := by
  have same : pieceAt (some strayDistance) 1 = pieceAt (some nestedDistance) 1 := by decide
  have each : ∀ slot ∈ ["f(1, 2)", "", "g"], IsTrimmed slot.toList ∧
      topLevelCommas slot.toList = [] ∧ parenDepth 0 slot.toList = 0 := by decide
  obtain ⟨-, ⟨-, -, distance, -⟩, -, -, -, written⟩ := slots_positional
  exact ⟨same, distance _ _ same, each, written _ (by decide) (by decide) each⟩

end TriggerSheet.Slots
