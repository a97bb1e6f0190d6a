import TriggerSheet.Sheet.Basic
import TriggerSheet.Text.Blank

/-!
# Actions of a clause

The body of a clause is flat text in which actions are found from left to right, wherever they
start: a property of letters and hyphens, a colon with blanks around it, and a value of at least
one character up to a semicolon, free of braces. What fits nowhere is passed over. An action with
a blank value is read and dropped.

## Main definitions

* `Action.readAt?` — an action that starts a text, and what follows it
* `Action.readAll` — the actions of a body
-/

namespace TriggerSheet.Action

/-- Letters of the ASCII range and the hyphen. -/
def isPropertyChar (c : Char) : Bool := c.isAlpha || c == '-'

/-- Anything but a semicolon and braces. -/
def isValueChar (c : Char) : Bool := c != ';' && c != '{' && c != '}'

/-- The value that starts a text and ends at a semicolon, and what follows it. -/
def readValue? (s : List Char) : Option (List Char × List Char) :=
  match s.dropWhile isValueChar with
  | ';' :: rest =>
    let value := s.takeWhile isValueChar
    if value.isEmpty then none else some (value, rest)
  | _ => none

/-- The value behind a colon that starts a text, and what follows it. -/
def readColon? : List Char → Option (List Char × List Char)
  | ':' :: rest => readValue? rest
  | _ => none

/-- The property, the value and the rest of a text that starts with an action. -/
def readAt? (s : List Char) : Option (List Char × List Char × List Char) :=
  let property := s.takeWhile isPropertyChar
  if property.isEmpty then none
  else
    (readColon? (Text.trimStart (s.dropWhile isPropertyChar))).map fun (value, rest) =>
      (property, value, rest)

/-- The action of a property and an untrimmed value, unless the value is blank. -/
def ofParts? (property value : List Char) : Option Action :=
  let value := Text.trim value
  if value.isEmpty then none else some ⟨String.ofList property, String.ofList value⟩

theorem length_readValue?_lt {s value rest : List Char} (h : readValue? s = some (value, rest)) :
    rest.length < s.length := by
  unfold readValue? at h
  split at h
  · rename_i tail eq
    have tailLength := (List.dropWhile_sublist isValueChar (l := s)).length_le
    rw [eq, List.length_cons] at tailLength
    simp only [Option.ite_none_left_eq_some, Option.some.injEq, Prod.mk.injEq] at h
    rw [← h.2.2]
    omega
  · simp at h

theorem length_readColon?_lt {s value rest : List Char} (h : readColon? s = some (value, rest)) :
    rest.length < s.length := by
  unfold readColon? at h
  split at h
  · have := length_readValue?_lt h
    simp only [List.length_cons]
    omega
  · simp at h

theorem length_readAt?_lt {s property value rest : List Char}
    (h : readAt? s = some (property, value, rest)) : rest.length < s.length := by
  simp only [readAt?, Option.ite_none_left_eq_some, Option.map_eq_some_iff, Prod.exists,
    Prod.mk.injEq] at h
  obtain ⟨-, value', rest', read, -, -, rfl⟩ := h
  have colon := length_readColon?_lt read
  have blank := Text.length_trimStart_le (s.dropWhile isPropertyChar)
  have property := (List.dropWhile_sublist isPropertyChar (l := s)).length_le
  omega

/-- The actions of a body, from left to right. -/
def readAll (s : List Char) : List Action :=
  match _h : readAt? s with
  | some (property, value, rest) => (ofParts? property value).toList ++ readAll rest
  | none =>
    match s with
    | [] => []
    | _ :: rest => readAll rest
termination_by s.length
decreasing_by
  · exact length_readAt?_lt ‹_›
  · simp

theorem readAll_of_readAt? {s property value rest : List Char}
    (h : readAt? s = some (property, value, rest)) :
    readAll s = (ofParts? property value).toList ++ readAll rest := by
  rw [readAll]
  split <;> simp_all

theorem readAll_nil : readAll [] = [] := by
  rw [readAll]
  rfl

theorem readAll_cons {c : Char} {rest : List Char} (h : readAt? (c :: rest) = none) :
    readAll (c :: rest) = readAll rest := by
  rw [readAll]
  split <;> simp_all

end TriggerSheet.Action
