import TriggerSheet.EventName
import TriggerSheet.Text.Ascii
import TriggerSheet.Text.Blank
import TriggerSheet.Text.Quoted

/-!
# Activations

The name of a trigger says how its clause is activated: by one of five composite words, by an
event of the window, or by an event of each matched element. Outer blanks and the case of letters
do not matter.

## Main definitions

* `Activation` — the ways to activate a clause
* `Activation.ofName` — the activation that a trigger name stands for
* `Activation.needsTargets` — whether matched elements are needed to bind it
* `Activation.text`, `Activation.describe` — its texts for readers and for developers
-/

namespace TriggerSheet

/-- The ways to activate a clause. -/
inductive Activation where
  | singleClick
  | doubleClick
  | hold
  | reveal
  | contentReady
  | window (event : String)
  | element (event : String)
  deriving DecidableEq, Repr

namespace Activation

/-- The activation of a composite word, in lower case. -/
def composite? (word : String) : Option Activation :=
  match word with
  | "onsing.click" => some singleClick
  | "ondbl.click" => some doubleClick
  | "onhold.click" => some hold
  | "reveal.onscroll" => some reveal
  | "domcontent.onload" => some contentReady
  | _ => none

/-- A word without one leading `on`. -/
def dropOn : List Char → List Char
  | 'o' :: 'n' :: rest => rest
  | word => word

/-- The page event that a word of a trigger name stands for: in lower case, without one leading
`on`, and with `hover` read as the pointer entering. -/
def eventOf (word : List Char) : String :=
  let event := String.ofList (dropOn (Text.lower word))
  if event = "hover" then EventName.pointerEnter else event

/-- Whether a word names the window. -/
def namesWindow (word : List Char) : Bool := String.ofList (Text.lower word) = "window"

/-- The activation that a trimmed name stands for: a composite word, a name of two parts around
one dot, or a bare event. -/
def ofTrimmed (name : List Char) : Activation :=
  match composite? (String.ofList (Text.lower name)) with
  | some activation => activation
  | none =>
    match Text.splitOn '.' name with
    | [target, event] =>
      let event := eventOf (Text.trim event)
      if namesWindow (Text.trim target) then window event else element event
    | _ => element (eventOf name)

/-- The activation that a trigger name stands for. -/
def ofName (name : String) : Activation := ofTrimmed (Text.trim name.toList)

/-- Whether binding looks for matched elements, and registers something for each of them. -/
def needsTargets : Activation → Bool
  | window _ | contentReady => false
  | _ => true

/-- The page event that the activation listens for, when its name is free. -/
def event? : Activation → Option String
  | window event | element event => some event
  | _ => none

/-- The text for readers. -/
def text : Activation → String
  | singleClick => "single click"
  | doubleClick => "double click"
  | hold => "press-and-hold"
  | reveal => "reveal once on scroll"
  | contentReady => "content ready"
  | window event => "window '" ++ event ++ "'"
  | element event => "element '" ++ event ++ "'"

/-- The name of the kind of activation. -/
def kind : Activation → String
  | singleClick => "SingleClick"
  | doubleClick => "DoubleClick"
  | hold => "Hold"
  | reveal => "Reveal"
  | contentReady => "ContentReady"
  | window _ => "Window"
  | element _ => "Element"

/-- The text for developers. -/
def describe (a : Activation) : String :=
  match a.event? with
  | none => a.kind
  | some event => a.kind ++ " \x7b event: " ++ Text.quoted event ++ " \x7d"

end Activation

end TriggerSheet
