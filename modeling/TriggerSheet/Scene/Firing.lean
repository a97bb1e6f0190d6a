import TriggerSheet.Effect.Category
import TriggerSheet.Scene.Basic

/-!
# Firing

A handler fires by asking the page once for what its selector matches, and then running its
actions on all of it, in order. Each effect call passes two gates: the effect is registered, and
the category of the property accepts it. A call that fails is reported and its siblings run.

What an effect does to the page is given as a function, `react`, so that firing can be described
before it is known what else a page step sets off.

## Main definitions

* `Scene.setOff` — a firing of a handler begins
* `Scene.fire` — what the handler does then
* `Scene.runCall`, `Scene.runAction` — its effect calls
-/

namespace TriggerSheet

/-- What happens when an effect takes its page steps. -/
abbrev Reaction := Scene → List PageStep → Scene

namespace Scene

variable (react : Reaction)

/-- Calls an effect for one element. -/
def callEffect (firing : Nat) (call : Call) (effect : Effect) (s : Scene) (target : Target) :
    Scene :=
  react (s.record (some firing) (.effect call.name target call.argument))
    (effect.steps target call.argument s.calls)

/-- Runs one effect call on all targets, or reports why it is skipped. -/
def runCall (firing : Nat) (sink : Sink) (targets : List Target) (property : String) (s : Scene)
    (call : Call) : Scene :=
  match s.setup.effects.lookup? call.name with
  | none => s.report (some firing) sink (.unknownEffect call.name property)
  | some effect =>
    if acceptsEffect property call.name then targets.foldl (callEffect react firing call effect) s
    else s.report (some firing) sink (.incompatibleEffect call.name property)

/-- Runs the effect calls of an action on all targets. -/
def runAction (firing : Nat) (sink : Sink) (targets : List Target) (s : Scene)
    (action : Action) : Scene :=
  action.calls.foldl (runCall react firing sink targets action.property) s

/-- The scene in which a handler has fired once more and found an element. -/
def countFiring (s : Scene) (h : Nat) : Scene :=
  s.modifyHandler h fun handler => { handler with fired := handler.fired + 1 }

/-- The scene in which one more firing has begun. -/
def beginFiring (s : Scene) (h : Nat) (cause : Cause) : Scene :=
  { s with firings := s.firings ++ [⟨h, cause⟩] }

/-- Runs the actions of a handler on the elements that one query found. -/
def runFiring (s : Scene) (h : Nat) (handler : Handler) (firing : Nat) (found : List Target) :
    Scene :=
  if found.isEmpty then
    s.report (some firing) handler.sink (.noMatchingTargets handler.selector handler.trigger)
  else
    handler.actions.foldl (runAction react firing handler.sink found)
      ((s.countFiring h).log (some firing)
        (.fired handler.selector handler.trigger found.length))

/-- One firing of a handler. -/
def fire (s : Scene) (h : Nat) (handler : Handler) (firing : Nat) : Scene :=
  let found := s.page.matching handler.selector
  (s.record (some firing) (.query handler.selector found)).runFiring react h handler firing found

/-- Sets a handler off: whatever the firing does then, it has begun and has its number. -/
def setOff (s : Scene) (h : Nat) (cause : Cause) : Scene :=
  match s.handlers[h]? with
  | none => s
  | some handler => (s.beginFiring h cause).fire react h handler s.firings.length

end Scene

end TriggerSheet
