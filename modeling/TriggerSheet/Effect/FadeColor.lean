import TriggerSheet.Effect.Slot
import TriggerSheet.Value.Duration

/-!
# Arguments of the color fading effect

`fadeColor` takes two colors and a duration. The colors stay texts.

## Main definitions

* `FadeColorArgs.read` — the arguments
-/

namespace TriggerSheet

/-- The arguments of the color fading effect. -/
structure FadeColorArgs where
  source : String
  target : String
  duration : Duration
  deriving DecidableEq, Repr

namespace FadeColorArgs

/-- The arguments in a text. -/
def read (argument : Option String) : FadeColorArgs :=
  let slots := Slots.ofText argument
  { source := (slots.at? 0).getD "#000000"
    target := (slots.at? 1).getD "#ffffff"
    duration := Duration.parseOr (slots.at? 2) (Duration.ofMillis 1000) }

end FadeColorArgs

end TriggerSheet
