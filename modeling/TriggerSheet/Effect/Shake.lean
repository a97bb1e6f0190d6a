import TriggerSheet.Effect.Slot
import TriggerSheet.Text.Ascii
import TriggerSheet.Value.Duration

/-!
# Arguments of the shaking effect

`shake` takes a style, an intensity and a duration. A style that is not known is the plain one.

## Main definitions

* `ShakeArgs.read` — the arguments
* `ShakeArgs.keyframes` — the transforms of the element, first to last
* `ShakeArgs.frameTime` — the time between two of them
-/

namespace TriggerSheet

/-- The ways to shake. -/
inductive ShakeStyle where
  | sideways
  | seesaw
  | cocktailShaker
  deriving DecidableEq, Repr

namespace ShakeStyle

/-- The word for a style. -/
def name : ShakeStyle → String
  | sideways => "sideways"
  | seesaw => "seesaw"
  | cocktailShaker => "cocktail-shaker"

/-- The style that a slot names, letter case apart. -/
def ofSlot : Option String → ShakeStyle
  | none => sideways
  | some word =>
    match String.ofList (Text.lower word.toList) with
    | "seesaw" => seesaw
    | "cocktail-shaker" => cocktailShaker
    | _ => sideways

end ShakeStyle

/-- The arguments of the shaking effect. -/
structure ShakeArgs where
  style : ShakeStyle
  intensity : String
  duration : Duration
  deriving DecidableEq, Repr

namespace ShakeArgs

/-- The arguments in a text. -/
def read (argument : Option String) : ShakeArgs :=
  let slots := Slots.ofText argument
  { style := ShakeStyle.ofSlot (slots.at? 0)
    intensity := (slots.at? 1).getD "10px"
    duration := Duration.parseOr (slots.at? 2) Duration.standard }

/-- Shaking to and fro along an axis. -/
def wobble (axis intensity : String) : List String :=
  ["0", "-" ++ intensity, intensity, "-" ++ intensity, intensity, "0"].map fun shift =>
    axis ++ "(" ++ shift ++ ")"

/-- The transforms of the element, first to last. -/
def keyframes (args : ShakeArgs) : List String :=
  match args.style with
  | .seesaw =>
    ["0deg", "5deg", "-5deg", "3deg", "-3deg", "0deg"].map fun angle => "rotate(" ++ angle ++ ")"
  | .cocktailShaker => wobble "translateY" args.intensity
  | .sideways => wobble "translateX" args.intensity

/-- The time between two keyframes, in whole nanoseconds. -/
def frameTime (args : ShakeArgs) : Duration :=
  ⟨args.duration.nanos / (args.keyframes.length - 1)⟩

end ShakeArgs

end TriggerSheet
