import TriggerSheet.Text.Ascii
import TriggerSheet.Text.Blank

/-!
# Groups

Blocks and clauses have one form: a name up to an opening brace, and a body up to the brace that
closes it. A cursor reads the groups of a text from left to right. Damage stays local: a closing
brace where a name is expected is passed over, a body that is never closed runs to the end of the
text, and text that no opening brace follows is left unread.

## Main definitions

* `Cursor` — a point of a text, with its byte offset and what follows
* `Body.read` — a body, up to the brace that closes it
* `Cursor.next?` — the next group or stray brace
* `Piece.all` — all groups and stray braces of a text, for either level of groups

## Main results

* `Cursor.length_next?_lt` — reading moves forward
-/

namespace TriggerSheet

/-- A point of a text. -/
structure Cursor where
  /-- The number of bytes before this point. -/
  offset : Nat
  /-- The text behind this point. -/
  rest : List Char

/-- A body as far as it goes. -/
structure Body where
  text : List Char
  /-- The number of braces that are open at the end of the text; 0 if the body is closed. -/
  unclosed : Nat
  /-- What follows the closing brace. -/
  rest : List Char

namespace Body

/-- Puts a character in front of a body. -/
def push (c : Char) (b : Body) : Body := { b with text := c :: b.text }

/-- Reads a body with `depth` braces open, up to the brace that closes the last of them. -/
def read (depth : Nat) : List Char → Body
  | [] => ⟨[], depth, []⟩
  | c :: rest =>
    if c = '{' then (read (depth + 1) rest).push c
    else if c = '}' then
      if depth - 1 = 0 then ⟨[], 0, rest⟩ else (read (depth - 1) rest).push c
    else (read depth rest).push c

theorem length_rest_read_le (depth : Nat) (s : List Char) :
    (read depth s).rest.length ≤ s.length := by
  induction s generalizing depth with
  | nil => simp [read]
  | cons c s ih =>
    have step := fun d => Nat.le_succ_of_le (ih d)
    rw [read]
    split
    · exact step _
    · split
      · split
        · simp
        · exact step _
      · exact step _

end Body

/-- A name with its body. -/
structure Group where
  name : List Char
  body : List Char
  /-- The byte offset of the first character of the body. -/
  start : Nat
  /-- The number of braces that are open at the end of the text; 0 if the body is closed. -/
  unclosed : Nat

/-- What a cursor passes over. -/
inductive Piece where
  | stray (offset : Nat)
  | group (group : Group)

/-- The level of the groups of a text: blocks stand in a sheet, clauses in the body of a block. -/
inductive Level where
  | sheet
  | block
  deriving DecidableEq, Repr

namespace Cursor

/-- Moves over `passed`, which leaves `rest`. -/
def moveOver (c : Cursor) (passed rest : List Char) : Cursor :=
  ⟨c.offset + Text.byteLength passed, rest⟩

/-- Moves over space of the ASCII range. -/
def skipSpace (c : Cursor) : Cursor :=
  c.moveOver (c.rest.takeWhile Text.isSpace) (c.rest.dropWhile Text.isSpace)

/-- Moves over space and one semicolon, if there is one. -/
def skipTerminator (c : Cursor) : Cursor :=
  match c.skipSpace.rest with
  | ';' :: rest => c.skipSpace.moveOver [';'] rest
  | _ => c.skipSpace

/-- Reads a group whose opening brace stands behind `name`, with `inside` behind that brace. -/
def readGroup (c : Cursor) (name inside : List Char) : Group × Cursor :=
  let start := c.moveOver (name ++ ['{']) inside
  let body := Body.read 1 inside
  let closing := if body.unclosed = 0 then ['}'] else []
  (⟨Text.trim name, body.text, start.offset, body.unclosed⟩,
    start.moveOver (body.text ++ closing) body.rest)

/-- Moves over the next closing brace, which closes nothing. -/
def passStray (c : Cursor) : Piece × Cursor :=
  let stray := c.moveOver (c.rest.takeWhile (· ≠ '}')) (c.rest.dropWhile (· ≠ '}'))
  (.stray stray.offset, stray.moveOver ['}'] (stray.rest.drop 1))

/-- Reads the next group, or passes the next closing brace when that comes first; nothing is read
when no opening brace follows. -/
def next? (c : Cursor) : Option (Piece × Cursor) :=
  let name := c.skipSpace.rest.takeWhile (· ≠ '{')
  match c.skipSpace.rest.dropWhile (· ≠ '{') with
  | [] => none
  | _ :: inside =>
    if '}' ∈ name then some c.skipSpace.passStray
    else
      let (group, after) := c.skipSpace.readGroup name inside
      some (.group group, after)

/-- Where reading goes on behind a piece: behind a clause, one semicolon is passed over. -/
def resume (level : Level) (piece : Piece) (c : Cursor) : Cursor :=
  match level, piece with
  | .block, .group _ => c.skipTerminator
  | _, _ => c

theorem length_skipSpace_le (c : Cursor) : c.skipSpace.rest.length ≤ c.rest.length :=
  (List.dropWhile_sublist Text.isSpace).length_le

theorem length_skipTerminator_le (c : Cursor) :
    c.skipTerminator.rest.length ≤ c.rest.length := by
  have h := c.length_skipSpace_le
  unfold skipTerminator
  split
  · rename_i rest eq
    simp only [eq, List.length_cons] at h
    simp only [moveOver]
    omega
  · exact h

theorem length_resume_le (level : Level) (piece : Piece) (c : Cursor) :
    (c.resume level piece).rest.length ≤ c.rest.length := by
  unfold resume
  split
  · exact c.length_skipTerminator_le
  · exact Nat.le_refl _

/-- Reading moves forward. -/
theorem length_next?_lt {c after : Cursor} {piece : Piece} (h : c.next? = some (piece, after)) :
    after.rest.length < c.rest.length := by
  have space := c.length_skipSpace_le
  simp only [next?] at h
  split at h
  · simp at h
  · rename_i brace inside eq
    have opening := (List.dropWhile_sublist (· ≠ '{') (l := c.skipSpace.rest)).length_le
    rw [eq, List.length_cons] at opening
    split at h <;> obtain ⟨-, rfl⟩ := Prod.mk.inj (Option.some.inj h)
    · have closing := (List.dropWhile_sublist (· ≠ '}') (l := c.skipSpace.rest)).length_le
      simp only [moveOver, List.length_drop]
      omega
    · have body := Body.length_rest_read_le 1 inside
      simp only [readGroup, moveOver]
      omega

end Cursor

namespace Piece

/-- All groups and stray braces from a cursor on. -/
def allFrom (level : Level) (c : Cursor) : List Piece :=
  match _h : c.next? with
  | none => []
  | some (piece, after) => piece :: allFrom level (after.resume level piece)
termination_by c.rest.length
decreasing_by
  exact Nat.lt_of_le_of_lt (Cursor.length_resume_le _ _ _) (Cursor.length_next?_lt ‹_›)

theorem allFrom_of_next?_eq_none {level : Level} {c : Cursor} (h : c.next? = none) :
    allFrom level c = [] := by
  rw [allFrom]
  split <;> simp_all

theorem allFrom_of_next?_eq_some {level : Level} {c after : Cursor} {piece : Piece}
    (h : c.next? = some (piece, after)) :
    allFrom level c = piece :: allFrom level (after.resume level piece) := by
  rw [allFrom]
  split <;> simp_all

/-- All groups and stray braces of a text. -/
def all (level : Level) (s : List Char) : List Piece := allFrom level ⟨0, s⟩

/-- The group, unless it is a stray brace. -/
def group? : Piece → Option Group
  | stray _ => none
  | group g => some g

end Piece

/-- The groups of a text. -/
def Group.all (level : Level) (s : List Char) : List Group :=
  (Piece.all level s).filterMap Piece.group?

end TriggerSheet
