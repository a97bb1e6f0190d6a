import TriggerSheet.Activation
import TriggerSheet.Effect.Registry
import TriggerSheet.Note
import TriggerSheet.Options
import TriggerSheet.Scene.Page
import TriggerSheet.Sheet.Basic

/-!
# Scenes

A scene is a page with an engine on it: the handlers of all clauses that were bound, the groups in
which they were handed out, and a journal of everything that happened. An effect is what happens
to the page when it is called, so a firing can set off others before it ends.

## Main definitions

* `Handler`, `Entry` — a bound clause, and what it keeps for each element
* `Binding` — the handlers of one bind
* `Event`, `JournalEntry` — what happens, and the firing in which it happens
* `Effect` — what happens to the page when an effect is called
* `Setup` — what a scene starts from
* `Scene` — the state
-/

namespace TriggerSheet

/-- What a handler keeps for one element: at most one registration, a timer or an observation,
and whether the element has entered the view. -/
structure Entry where
  held : Option Nat
  revealed : Bool
  deriving DecidableEq, Repr

/-- The entry of an element for which nothing has happened yet. -/
def Entry.fresh : Entry := ⟨none, false⟩

/-- A bound clause. -/
structure Handler where
  selector : String
  trigger : String
  activation : Activation
  actions : List Action
  sink : Sink
  holdThreshold : Duration
  /-- The number of firings that found an element. -/
  fired : Nat
  /-- The numbers of its listeners. -/
  listeners : List Nat
  /-- What is kept for each element, for holding and revealing handlers. -/
  entries : List Entry
  deriving DecidableEq, Repr

/-- Whether the timer of a press is pending. -/
def Handler.isPending (h : Handler) : Bool :=
  h.activation = .hold && h.entries.any fun entry => entry.held.isSome

/-- The handlers of one bind, by their numbers: all of them together, some of them after others
were taken out, or none after they were given back. -/
inductive Binding where
  | whole (handlers : List Nat)
  | parts (handlers : List (Option Nat))
  | released
  deriving DecidableEq, Repr

/-- The places of a binding, with the handlers that are left. -/
def Binding.places : Binding → List (Option Nat)
  | whole handlers => handlers.map some
  | parts handlers => handlers
  | released => []

/-- Why a handler fires. -/
inductive Cause where
  /-- The page emitted the event that the handler listens for. -/
  | event
  /-- The press of an element lasted long enough. -/
  | held (entry : Nat)
  /-- An element entered the view. -/
  | revealed (entry : Nat)
  /-- What the handler waits for had happened before it was bound. -/
  | alreadyPast
  /-- The handler was told to. -/
  | manual
  deriving DecidableEq, Repr

/-- A firing, numbered by its place among all firings. -/
structure Firing where
  handler : Nat
  cause : Cause
  deriving DecidableEq, Repr

/-- What happens in a scene. -/
inductive Event where
  | query (selector : String) (found : List Target)
  | listen (id : Nat) (scope : Scope) (event : String)
  | askContentReady
  | askLoaded
  | observe (id : Nat) (target : Target) (threshold : Binary64)
  | schedule (id : Nat) (delay : Duration)
  | scheduleNow
  | cancel (id : Nat)
  | effect (name : String) (target : Target) (argument : Option String)
  | diagnostic (d : Diagnostic)
  /-- The page runs a callback. -/
  | called (callback : Callback)
  | logged (note : Note)
  deriving DecidableEq, Repr

/-- Something that happened, with the number of the firing that did it, if one did, and how often
each handler had fired by then. -/
structure JournalEntry where
  firing : Option Nat
  event : Event
  fired : List Nat
  deriving DecidableEq, Repr

/-- An effect is called. -/
def Event.isEffect : Event → Bool
  | effect _ _ _ => true
  | _ => false

/-- What an effect does, as the page steps that it takes. They may depend on the element, on the
argument and on the number of effect calls before this one, so no two calls need to do the same,
and in a play the number stands for whatever the effect remembers or sees. -/
structure Effect where
  steps (target : Target) (argument : Option String) (call : Nat) : List PageStep

/-- The effect that takes the same page steps whenever it is called. -/
def Effect.script (steps : List PageStep) : Effect := ⟨fun _ _ _ => steps⟩

instance : Coe (List PageStep) Effect := ⟨Effect.script⟩

/-- What a scene starts from. -/
structure Setup where
  matched : List (String × List Target)
  loaded : Bool
  contentReady : Bool
  effects : Registry Effect
  options : Options
  sink : Sink
  /-- Whether the page goes on to call cancelled observers. -/
  ignoreUnobserve : Bool
  /-- Whether the page runs a timer without delay at once. -/
  syncTimers : Bool
  /-- What an element's observer is told while it is registered. -/
  signals : List (Target × List Bool)
  /-- How many page steps effects may take in all. Reactions that would end anyway take finitely
  many, so there is a budget that does not touch them. -/
  budget : Nat

/-- The state of a scene. -/
structure Scene where
  setup : Setup
  page : Page
  handlers : List Handler
  bindings : List Binding
  firings : List Firing
  journal : List JournalEntry
  budget : Nat

/-- The scene before anything has happened. -/
def Setup.start (setup : Setup) : Scene where
  setup
  page :=
    { matched := setup.matched
      loaded := setup.loaded
      contentReady := setup.contentReady
      now := ⟨0⟩
      nextId := 0
      listeners := []
      observers := []
      timers := [] }
  handlers := []
  bindings := []
  firings := []
  journal := []
  budget := setup.budget

namespace Scene

/-- The scene with one more entry in its journal. -/
def record (s : Scene) (firing : Option Nat) (event : Event) : Scene :=
  { s with journal := s.journal ++ [⟨firing, event, s.handlers.map (·.fired)⟩] }

/-- The scene with a note in its journal. -/
def log (s : Scene) (firing : Option Nat) (note : Note) : Scene := s.record firing (.logged note)

/-- The scene with a diagnostic, sent where the sink says. -/
def report (s : Scene) (firing : Option Nat) (sink : Sink) (d : Diagnostic) : Scene :=
  match sink with
  | .journal => s.record firing (.diagnostic d)
  | .log => s.log firing (.diagnosed d)

/-- The number of effect calls so far. -/
def calls (s : Scene) : Nat := s.journal.countP (·.event.isEffect)

/-- The scene with one handler changed. -/
def modifyHandler (s : Scene) (h : Nat) (f : Handler → Handler) : Scene :=
  { s with handlers := s.handlers.modify h f }

/-- The scene with one entry of a handler changed. -/
def modifyEntry (s : Scene) (h e : Nat) (f : Entry → Entry) : Scene :=
  s.modifyHandler h fun handler => { handler with entries := handler.entries.modify e f }

/-- An entry of a handler. -/
def entryAt? (s : Scene) (h e : Nat) : Option Entry := s.handlers[h]?.bind (·.entries[e]?)

/-- The scene in which an entry holds a registration, or none. -/
def hold (s : Scene) (h e : Nat) (id : Option Nat) : Scene :=
  s.modifyEntry h e ({ · with held := id })

/-- The scene in which a registration is cancelled. -/
def cancel (s : Scene) (id : Nat) : Scene :=
  { s with page := s.page.cancel id }.record none (.cancel id)

/-- The scene in which an entry holds nothing, and what it held is cancelled. -/
def clear (s : Scene) (h e : Nat) : Scene :=
  match (s.entryAt? h e).bind (·.held) with
  | some id => (s.hold h e none).cancel id
  | none => s

/-- The scene in which a handler has one more listener on the page. -/
def listen (s : Scene) (h : Nat) (scope : Scope) (event : String) (callback : Callback) : Scene :=
  let id := s.page.nextId
  ({ s with page := s.page.listen scope event callback }.record none
    (.listen id scope event)).modifyHandler h fun handler =>
      { handler with listeners := handler.listeners ++ [id] }

end Scene

end TriggerSheet
