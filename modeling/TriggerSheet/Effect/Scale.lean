import TriggerSheet.Effect.Slot
import TriggerSheet.Note
import TriggerSheet.Value.Duration

/-!
# Arguments of scaling effects

`pop` and `implode` take a factor and a duration. A factor is a scientific numeral whose binary64
value is finite and not zero; one that cannot be read is noted and falls back to 1.2.

## Main definitions

* `ScaleArgs.parseFactor` — the strict reader of factors
* `ScaleArgs.read` — the arguments, with the notes of reading them
-/

namespace TriggerSheet

/-- The arguments of a scaling effect. -/
structure ScaleArgs where
  scale : Binary64
  duration : Duration
  deriving DecidableEq, Repr

namespace ScaleArgs

/-- The factor that a text writes. -/
def parseFactor (text : String) : Except ValueError Binary64 :=
  match Scientific.ofText? (Text.trim text.toList) with
  | some numeral =>
    if numeral.value.isProper then .ok numeral.value else .error (.invalidNumber text)
  | none => .error (.invalidNumber text)

/-- The factor of an effect that is given none: 1.2. -/
def standardScale : Binary64 := (Scientific.mk false ⟨12, 1⟩ 0).value

/-- The factor in a slot, and what is noted about it. -/
def readScale : Option String → Binary64 × List Note
  | none => (standardScale, [])
  | some text =>
    match parseFactor text with
    | .ok scale => (scale, [])
    | .error error => (standardScale, [.scaleFallback error])

/-- The arguments in a text, and what is noted about them. -/
def read (argument : Option String) : ScaleArgs × List Note :=
  let slots := Slots.ofText argument
  let (scale, notes) := readScale (slots.at? 0)
  ({ scale, duration := Duration.parseOr (slots.at? 1) (Duration.ofMillis 300) }, notes)

end ScaleArgs

end TriggerSheet
