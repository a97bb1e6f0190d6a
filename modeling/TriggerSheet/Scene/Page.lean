import TriggerSheet.Value.Duration

/-!
# Pages

A page matches selectors, tells whether it is loaded, and calls back: listeners when an event
happens where they stand, observers when their element enters or leaves the view, timers when they
are due. All registrations are numbered from one counter and stay in the order in which they were
made; cancelling one makes it inactive.

## Main definitions

* `Scope` — where an event happens
* `Callback` — what a registration does, as the handler and entry that it concerns
* `Page` — the state of a page
* `Page.matching`, `Page.listening`, `Page.observing`, `Page.due` — what a page answers
* `Page.cancel` — the page without one active registration
-/

namespace TriggerSheet

/-- An element of a page, by its number. -/
abbrev Target := Nat

/-- Where an event happens, and where a listener stands. -/
inductive Scope where
  | global
  | document
  | target (t : Target)
  deriving DecidableEq, Repr

/-- What a registration does when the page calls it. Handlers are numbered in the order of
binding, the entries of a handler in the order of its targets. -/
inductive Callback where
  /-- An event that fires a handler. -/
  | event (handler : Nat)
  /-- An element of a holding handler is pressed. -/
  | press (handler entry : Nat)
  /-- An element of a holding handler is released, or left. -/
  | release (handler entry : Nat)
  /-- A press has lasted long enough. -/
  | elapse (handler entry : Nat)
  /-- An element of a revealing handler enters or leaves the view. -/
  | see (handler entry : Nat) (entered : Bool)
  deriving DecidableEq, Repr

/-- A registration for an event. -/
structure Listener where
  id : Nat
  scope : Scope
  event : String
  callback : Callback
  active : Bool
  deriving DecidableEq, Repr

/-- A registration for the visibility of an element. -/
structure Observer where
  id : Nat
  target : Target
  handler : Nat
  entry : Nat
  active : Bool
  deriving DecidableEq, Repr

/-- A registration for a point of time. -/
structure Timer where
  id : Nat
  due : Duration
  handler : Nat
  entry : Nat
  active : Bool
  deriving DecidableEq, Repr

/-- The state of a page. -/
structure Page where
  matched : List (String × List Target)
  loaded : Bool
  contentReady : Bool
  now : Duration
  nextId : Nat
  listeners : List Listener
  observers : List Observer
  timers : List Timer
  deriving DecidableEq, Repr

namespace Page

/-- The elements that a selector matches, in the order of the page; none for a selector that the
page does not know. -/
def matching (p : Page) (selector : String) : List Target :=
  (p.matched.lookup selector).getD []

/-- The page on which a selector matches other elements. -/
def setMatches (p : Page) (selector : String) (targets : List Target) : Page :=
  { p with matched := (selector, targets) :: p.matched.filter fun entry => entry.1 ≠ selector }

/-- The callbacks of the active listeners for exactly this event at this place. -/
def listening (p : Page) (scope : Scope) (event : String) : List Callback :=
  (p.listeners.filter fun l => l.active && l.scope = scope && l.event = event).map (·.callback)

/-- The callbacks of the observers of an element, which are told whether it entered the view.
With `all`, inactive observers are told too. -/
def observing (p : Page) (all : Bool) (target : Target) (entered : Bool) : List Callback :=
  (p.observers.filter fun o => (o.active || all) && o.target = target).map fun o =>
    .see o.handler o.entry entered

/-- Whether a timer is active and due. -/
def isDue (p : Page) (t : Timer) : Bool := t.active && t.due.nanos ≤ p.now.nanos

/-- The callbacks of the timers that are due. -/
def due (p : Page) : List Callback :=
  (p.timers.filter p.isDue).map fun t => .elapse t.handler t.entry

/-- The page on which the timers that are due are inactive. -/
def dropDue (p : Page) : Page :=
  { p with timers := p.timers.map fun t => { t with active := t.active && !p.isDue t } }

/-- The page at a later time. -/
def advance (p : Page) (time : Duration) : Page := { p with now := p.now.add time }

/-- The page with one more listener. -/
def listen (p : Page) (scope : Scope) (event : String) (callback : Callback) : Page :=
  { p with
    listeners := p.listeners ++ [⟨p.nextId, scope, event, callback, true⟩]
    nextId := p.nextId + 1 }

/-- The page with one more observer. -/
def observe (p : Page) (target : Target) (handler entry : Nat) : Page :=
  { p with
    observers := p.observers ++ [⟨p.nextId, target, handler, entry, true⟩]
    nextId := p.nextId + 1 }

/-- The page with one more timer. -/
def schedule (p : Page) (delay : Duration) (handler entry : Nat) : Page :=
  { p with
    timers := p.timers ++ [⟨p.nextId, p.now.add delay, handler, entry, true⟩]
    nextId := p.nextId + 1 }

/-- The page on which a registration is inactive. -/
def cancel (p : Page) (id : Nat) : Page :=
  { p with
    listeners := p.listeners.map fun l => { l with active := l.active && l.id ≠ id }
    observers := p.observers.map fun o => { o with active := o.active && o.id ≠ id }
    timers := p.timers.map fun t => { t with active := t.active && t.id ≠ id } }

/-- The active listeners. -/
def activeListeners (p : Page) : List Listener := p.listeners.filter (·.active)

/-- The active observers. -/
def activeObservers (p : Page) : List Observer := p.observers.filter (·.active)

/-- The active timers. -/
def activeTimers (p : Page) : List Timer := p.timers.filter (·.active)

end Page

/-- What can happen to a page. -/
inductive PageStep where
  | emit (scope : Scope) (event : String)
  | visibility (target : Target) (entered : Bool)
  | advance (time : Duration)
  | setMatches (selector : String) (targets : List Target)
  | setLoaded (value : Bool)
  | setContentReady (value : Bool)
  /-- Nothing happens. -/
  | pause
  deriving DecidableEq, Repr

end TriggerSheet
