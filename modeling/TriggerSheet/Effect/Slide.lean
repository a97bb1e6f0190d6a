import TriggerSheet.Effect.Slot
import TriggerSheet.Note
import TriggerSheet.Value.Duration

/-!
# Arguments of sliding effects

`slideIn` and `slideOut` take a direction, a distance and a duration. A direction that cannot be
read is noted and falls back to the left.

## Main definitions

* `Direction.parse` — the strict reader of directions
* `SlideArgs.read` — the arguments, with the notes of reading them
* `SlideArgs.offset` — where the element starts
-/

namespace TriggerSheet

/-- The side that an element slides from. -/
inductive Direction where
  | left
  | right
  deriving DecidableEq, Repr

namespace Direction

/-- The word for a direction. -/
def name : Direction → String
  | left => "left"
  | right => "right"

/-- The direction that a text names, outer blanks and letter case apart. -/
def parse (text : String) : Except ValueError Direction :=
  match String.ofList (Text.lower (Text.trim text.toList)) with
  | "left" => .ok left
  | "right" => .ok right
  | _ => .error (.unknownDirection text)

end Direction

/-- The arguments of a sliding effect. -/
structure SlideArgs where
  direction : Direction
  distance : String
  duration : Duration
  deriving DecidableEq, Repr

namespace SlideArgs

/-- The direction in a slot, and what is noted about it. -/
def readDirection : Option String → Direction × List Note
  | none => (.left, [])
  | some text =>
    match Direction.parse text with
    | .ok direction => (direction, [])
    | .error error => (.left, [.directionFallback error])

/-- The arguments in a text, and what is noted about them. -/
def read (argument : Option String) : SlideArgs × List Note :=
  let slots := Slots.ofText argument
  let (direction, notes) := readDirection (slots.at? 0)
  ({ direction, distance := (slots.at? 1).getD "30px",
     duration := Duration.parseOr (slots.at? 2) Duration.standard }, notes)

/-- The signed horizontal offset that an element slides in from. -/
def offset (args : SlideArgs) : String :=
  match args.direction with
  | .left => "-" ++ args.distance
  | .right => args.distance

end SlideArgs

end TriggerSheet
