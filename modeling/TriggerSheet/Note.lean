import TriggerSheet.Activation
import TriggerSheet.Diagnostic
import TriggerSheet.Value.Error

/-!
# Log notes

What reading, binding and firing tell a developer who listens. Notes change nothing; they say
which branch was taken and with what.

## Main definitions

* `Note` — everything that is noted
* `Note.severity`, `Note.message`, `Note.fields` — how a note is shown
-/

namespace TriggerSheet

/-- Everything that is noted. -/
inductive Note where
  /-- A closing brace closes nothing. -/
  | strayBrace (offset : Nat)
  /-- A body reaches the end of the text with `depth` braces open. -/
  | unterminated (offset depth : Nat)
  /-- A clause has an empty name. -/
  | namelessClause
  /-- A sheet was read. -/
  | read (blocks : Nat)
  /-- A sheet was bound. -/
  | bound (handlers : Nat)
  /-- A clause was bound. -/
  | boundClause (selector trigger : String) (activation : Activation) (targets : Nat)
  /-- A clause that waits for the content was bound after it was ready. -/
  | alreadyReady (selector : String)
  /-- A clause that waits for the window was bound after it was loaded. -/
  | alreadyLoaded (selector : String)
  /-- A clause fired. -/
  | fired (selector trigger : String) (targets : Nat)
  /-- The direction of a slide could not be read. -/
  | directionFallback (error : ValueError)
  /-- The factor of a scaling could not be read. -/
  | scaleFallback (error : ValueError)
  /-- A diagnostic went to the log. -/
  | diagnosed (diagnostic : Diagnostic)
  deriving DecidableEq, Repr

/-- How much a note matters. -/
inductive Severity where
  | debug
  | warn
  deriving DecidableEq, Repr

/-- The name of a severity. -/
def Severity.name : Severity → String
  | debug => "DEBUG"
  | warn => "WARN"

namespace Note

/-- Mistakes of authors are warnings; a selector without matches is routine on pages that share
one sheet. -/
def severity : Note → Severity
  | directionFallback _ | scaleFallback _ => .warn
  | diagnosed (.unknownEffect _ _) | diagnosed (.incompatibleEffect _ _) => .warn
  | _ => .debug

/-- The fixed text of a note. -/
def message : Note → String
  | strayBrace _ => "skipping unmatched closing brace"
  | unterminated _ _ => "unterminated block, truncating at end of input"
  | namelessClause => "skipping trigger block without a name"
  | read _ => "parsed document"
  | bound _ => "bound rule blocks"
  | boundClause _ _ _ _ => "bound trigger"
  | alreadyReady _ => "content already ready, firing now"
  | alreadyLoaded _ => "window already loaded, firing now"
  | fired _ _ _ => "trigger fired"
  | directionFallback _ => "slide direction falls back to left"
  | scaleFallback _ => "scale falls back to 1.2"
  | diagnosed (.unknownEffect _ _) => "unknown effect"
  | diagnosed (.incompatibleEffect _ _) => "effect not compatible with property"
  | diagnosed (.noMatchingTargets _ _) => "no matching targets"

/-- The named values of a note, as texts. -/
def fields : Note → List (String × String)
  | strayBrace offset => [("offset", toString offset)]
  | unterminated offset depth => [("offset", toString offset), ("depth", toString depth)]
  | namelessClause => []
  | read blocks => [("blocks", toString blocks)]
  | bound handlers => [("handlers", toString handlers)]
  | boundClause selector trigger activation targets =>
    [("selector", selector), ("trigger", trigger), ("activation", activation.text),
      ("targets", toString targets)]
  | alreadyReady selector | alreadyLoaded selector => [("selector", selector)]
  | fired selector trigger targets =>
    [("selector", selector), ("trigger", trigger), ("targets", toString targets)]
  | directionFallback error | scaleFallback error => [("err", error.message)]
  | diagnosed (.unknownEffect effect property)
  | diagnosed (.incompatibleEffect effect property) =>
    [("effect", effect), ("property", property)]
  | diagnosed (.noMatchingTargets selector trigger) =>
    [("selector", selector), ("trigger", trigger)]

end Note

end TriggerSheet
