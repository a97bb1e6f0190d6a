/-!
# Comments

Comments are taken out before anything else is read, in two passes. The first removes the spans
from `/*` to the next `*/` after the two opening characters, over any number of lines; a span that
is never closed stays. The second cuts each line at its first `//`. What the first pass brings
together can be cut by the second.

## Main definitions

* `Comment.dropSpans` — the first pass
* `Comment.cutLines` — the second pass
* `Comment.strip` — both
-/

namespace TriggerSheet.Comment

/-- What follows the first `*/` of a text. -/
def afterClose? : List Char → Option (List Char)
  | [] => none
  | c :: rest => if c = '*' ∧ rest.head? = some '/' then some rest.tail else afterClose? rest

theorem length_afterClose?_lt {s rest : List Char} (h : afterClose? s = some rest) :
    rest.length < s.length := by
  induction s with
  | nil => simp [afterClose?] at h
  | cons c s ih =>
    rw [afterClose?] at h
    split at h
    · obtain rfl := Option.some.inj h
      simp only [List.length_cons, List.length_tail]
      omega
    · exact Nat.lt_succ_of_lt (ih h)

/-- What follows a span that starts a text and is closed. -/
def afterSpan? : List Char → Option (List Char)
  | '/' :: '*' :: rest => afterClose? rest
  | _ => none

theorem length_afterSpan?_lt {s rest : List Char} (h : afterSpan? s = some rest) :
    rest.length < s.length := by
  unfold afterSpan? at h
  split at h
  · have := length_afterClose?_lt h
    simp only [List.length_cons]
    omega
  · simp at h

/-- A text without its closed spans, found from left to right. -/
def dropSpans (s : List Char) : List Char :=
  match _h : afterSpan? s with
  | some rest => dropSpans rest
  | none =>
    match s with
    | [] => []
    | c :: rest => c :: dropSpans rest
termination_by s.length
decreasing_by
  · exact length_afterSpan?_lt ‹_›
  · simp

theorem dropSpans_of_afterSpan? {s rest : List Char} (h : afterSpan? s = some rest) :
    dropSpans s = dropSpans rest := by
  rw [dropSpans]
  split <;> simp_all

theorem dropSpans_nil : dropSpans [] = [] := by
  rw [dropSpans]
  rfl

theorem dropSpans_cons {c : Char} {rest : List Char} (h : afterSpan? (c :: rest) = none) :
    dropSpans (c :: rest) = c :: dropSpans rest := by
  rw [dropSpans]
  split <;> simp_all

/-- A text without what stands on each line from its first `//` on, where `skipping` tells that
this point of the current line has passed. -/
def cutLinesFrom (skipping : Bool) : List Char → List Char
  | [] => []
  | c :: rest =>
    if c = '\n' then c :: cutLinesFrom false rest
    else if skipping ∨ (c = '/' ∧ rest.head? = some '/') then cutLinesFrom true rest
    else c :: cutLinesFrom false rest

/-- A text without what stands on each line from its first `//` on; line breaks stay. -/
def cutLines (s : List Char) : List Char := cutLinesFrom false s

/-- A text without its comments. -/
def strip (s : List Char) : List Char := cutLines (dropSpans s)

end TriggerSheet.Comment
