import TriggerSheet.Text.Blank
import TriggerSheet.Text.TopLevel

/-!
# Effect calls

The value of an action is a list of calls between top-level commas. A call is a name with an
argument in parentheses or without one; the argument runs to the last character, so it keeps its
own parentheses. A piece that does not fit becomes a call named after the whole piece, which no
registry will know.

## Main definitions

* `Call` — a name and an argument
* `Call.segments` — the non-blank pieces of a value
* `Call.ofSegment` — one piece read as a call
* `Call.ofValue` — all calls of a value
* `Call.text` — the written form
-/

namespace TriggerSheet

/-- One call of an effect. -/
structure Call where
  name : String
  argument : Option String
  deriving DecidableEq, Repr

namespace Call

/-- Letters and digits of the ASCII range, the hyphen and the underscore. -/
def isNameChar (c : Char) : Bool := c.isAlphanum || c == '-' || c == '_'

/-- The trimmed pieces of a text between its top-level commas, without the empty ones. -/
def segmentsOf (s : List Char) : List (List Char) :=
  ((Text.topLevelPieces s).map Text.trim).filter fun piece => !piece.isEmpty

/-- The trimmed pieces of a value between its top-level commas, without the empty ones. -/
def segments (value : String) : List String := (segmentsOf value.toList).map String.ofList

/-- The text between an opening parenthesis at the start and a closing one at the end. -/
def parenthesized? : List Char → Option (List Char)
  | '(' :: rest =>
    match rest.getLast? with
    | some ')' => some rest.dropLast
    | _ => none
  | _ => none

/-- An argument, unless it is blank. -/
def argumentOf (s : List Char) : Option String :=
  let argument := Text.trim s
  if argument.isEmpty then none else some (String.ofList argument)

/-- A trimmed text that fits the form of a call. -/
def read? (s : List Char) : Option Call :=
  let name := s.takeWhile isNameChar
  if name.isEmpty then none
  else
    match Text.trimStart (s.dropWhile isNameChar) with
    | [] => some ⟨String.ofList name, none⟩
    | rest => (parenthesized? rest).map fun inner => ⟨String.ofList name, argumentOf inner⟩

/-- A trimmed text as a call, named after the whole text when it does not fit. -/
def ofTrimmed (s : List Char) : Call := (read? s).getD ⟨String.ofList s, none⟩

/-- One piece of a value as a call. -/
def ofSegment (segment : String) : Call := ofTrimmed (Text.trim segment.toList)

/-- All calls of a value, from left to right. -/
def ofValue (value : String) : List Call := (segmentsOf value.toList).map ofTrimmed

/-- The written form of a call. -/
def text (c : Call) : String :=
  match c.argument with
  | some argument => c.name ++ "(" ++ argument ++ ")"
  | none => c.name

end Call

end TriggerSheet
