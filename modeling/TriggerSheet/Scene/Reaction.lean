import TriggerSheet.Scene.Firing

/-!
# Callbacks and page steps

The page runs callbacks when something happens to it, and a callback can fire its handler. That a
callback runs is noted where the page runs it, before the callback does anything.

A holding handler keeps at most one timer for each element: a press replaces it, a release cancels
it, and a timer that has elapsed is forgotten before the handler fires. A revealing handler fires
once for each element, at its first entry into the view, and gives the observation up.

Effects take page steps of their own while a budget for the whole scene lasts, so every reaction
ends.

## Main definitions

* `Scene.press`, `Scene.elapse`, `Scene.see` — what callbacks do
* `Scene.run` — the page runs a callback
* `Scene.perform` — a page step, with the number of callbacks that it ran
* `Scene.react` — the page steps of an effect
-/

namespace TriggerSheet.Scene

section Callbacks

variable (react : Reaction)

/-- The timer of an entry elapses: it is forgotten, not cancelled, and the handler fires. -/
def elapse (s : Scene) (h e : Nat) : Scene := (s.hold h e none).setOff react h (.held e)

/-- Starts the timer of an entry. A page that runs a timer without delay at once leaves nothing to
hold. -/
def startTimer (s : Scene) (h e : Nat) (delay : Duration) : Scene :=
  if delay.nanos = 0 ∧ s.setup.syncTimers then
    elapse react ((s.record none .scheduleNow).record none (.called (.elapse h e))) h e
  else
    let id := s.page.nextId
    ({ s with page := s.page.schedule delay h e }.record none (.schedule id delay)).hold h e
      (some id)

/-- An element is pressed: a pending timer is cancelled, and a new one starts. -/
def press (s : Scene) (h e : Nat) : Scene :=
  match s.handlers[h]? with
  | none => s
  | some handler => startTimer react (s.clear h e) h e handler.holdThreshold

/-- Whether an element has entered the view before. -/
def isRevealed (s : Scene) (h e : Nat) : Bool := ((s.entryAt? h e).map (·.revealed)).getD false

/-- An element enters or leaves the view: the first entry ends the observation and fires the
handler. -/
def see (s : Scene) (h e : Nat) (entered : Bool) : Scene :=
  if entered && !s.isRevealed h e then
    ((s.modifyEntry h e ({ · with revealed := true })).clear h e).setOff react h (.revealed e)
  else s

/-- What a callback does. When an element is released or left, a pending timer is cancelled. -/
def respond (s : Scene) : Callback → Scene
  | .event h => s.setOff react h .event
  | .press h e => press react s h e
  | .release h e => s.clear h e
  | .elapse h e => elapse react s h e
  | .see h e entered => see react s h e entered

/-- The page runs a callback. -/
def run (s : Scene) (c : Callback) : Scene := respond react (s.record none (.called c)) c

/-- Runs callbacks that were collected before, in order. -/
def runAll (s : Scene) (callbacks : List Callback) : Scene := callbacks.foldl (run react) s

/-- Performs a page step. For the steps that run callbacks, their number is given. -/
def perform (s : Scene) : PageStep → Option Nat × Scene
  | .emit scope event =>
    let callbacks := s.page.listening scope event
    (some callbacks.length, runAll react s callbacks)
  | .visibility target entered =>
    let callbacks := s.page.observing s.setup.ignoreUnobserve target entered
    (some callbacks.length, runAll react s callbacks)
  | .advance time =>
    let page := s.page.advance time
    let callbacks := page.due
    (some callbacks.length, runAll react { s with page := page.dropDue } callbacks)
  | .setMatches selector targets =>
    (none, { s with page := s.page.setMatches selector targets })
  | .setLoaded value => (none, { s with page := { s.page with loaded := value } })
  | .setContentReady value => (none, { s with page := { s.page with contentReady := value } })
  | .pause => (none, s)

/-- Takes one page step of an effect, if the budget of the scene allows it. -/
def spend (s : Scene) (step : PageStep) : Scene :=
  if s.budget = 0 then s else (perform react { s with budget := s.budget - 1 } step).2

end Callbacks

/-- The page steps of an effect, which nest at most `depth` times. -/
def reactWithin : Nat → Reaction
  | 0 => fun s _ => s
  | depth + 1 => fun s steps => steps.foldl (spend (reactWithin depth)) s

/-- The page steps of an effect while a budget that is no larger than that of `s` lasts: each
nesting has spent one step of it. -/
def react (s : Scene) : Reaction := reactWithin s.budget

end TriggerSheet.Scene
