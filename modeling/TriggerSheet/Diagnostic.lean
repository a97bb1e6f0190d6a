/-!
# Diagnostics

What binding and firing meet and recover from: an effect that nobody registered, an effect that
the property does not accept, and a selector that matches nothing.

## Main definitions

* `Diagnostic` — the three conditions
* `Diagnostic.message` — the text for people
* `Sink` — where diagnostics go
-/

namespace TriggerSheet

/-- A condition that binding or firing recovers from. -/
inductive Diagnostic where
  | unknownEffect (effect property : String)
  | incompatibleEffect (effect property : String)
  | noMatchingTargets (selector trigger : String)
  deriving DecidableEq, Repr

namespace Diagnostic

/-- The text for people. -/
def message : Diagnostic → String
  | unknownEffect effect property =>
    "unknown effect '" ++ effect ++ "' (property '" ++ property ++ "')"
  | incompatibleEffect effect property =>
    "effect '" ++ effect ++ "' is not compatible with property '" ++ property ++ "'"
  | noMatchingTargets selector trigger =>
    "no element matches '" ++ selector ++ "' for '" ++ trigger ++ "'"

end Diagnostic

/-- Where diagnostics go: into the journal as they are, or into the log as notes. -/
inductive Sink where
  | journal
  | log
  deriving DecidableEq, Repr

end TriggerSheet
