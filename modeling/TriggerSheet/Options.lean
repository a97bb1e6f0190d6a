import TriggerSheet.Numeral.Shortest
import TriggerSheet.Value.Duration

/-!
# Options of binding

## Main definitions

* `Options` — the thresholds of holding and revealing
* `Options.standard` — half a second, and a tenth
-/

namespace TriggerSheet

/-- What binding can be told. -/
structure Options where
  /-- How long a press lasts before a holding clause fires. -/
  holdThreshold : Duration
  /-- The visible part of an element at which a revealing clause fires. -/
  revealThreshold : Binary64
  deriving DecidableEq, Repr

namespace Options

/-- Half a second, and a tenth. -/
def standard : Options :=
  { holdThreshold := Duration.ofMillis 500
    revealThreshold := (Scientific.mk false ⟨1, 1⟩ 0).value }

/-- The text for developers. -/
def describe (o : Options) : String :=
  "Options \x7b hold_threshold: " ++ o.holdThreshold.text ++
    ", reveal_threshold: " ++ o.revealThreshold.text ++ " \x7d"

end Options

end TriggerSheet
