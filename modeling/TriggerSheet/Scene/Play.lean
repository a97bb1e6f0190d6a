import TriggerSheet.Scene.Binding

/-!
# Playing a scene

A scene is played step by step: something happens to the page, a sheet is bound, or something is
done with the handlers of an earlier bind. Every step has an answer; one that cannot be taken is
refused and changes nothing.

## Main definitions

* `Step` — what can be done with a scene
* `Answer` — what a step answers
* `Scene.step` — one step
* `Setup.play` — a whole play
-/

namespace TriggerSheet

/-- What is bound: a text that is read first, or blocks as they are. -/
inductive Source where
  | text (source : String)
  | blocks (list : List Block)
  deriving DecidableEq, Repr

/-- The blocks of a source. -/
def Source.sheet : Source → List Block
  | text source => Sheet.parse source
  | blocks list => list

/-- What is noted while a source is read. -/
def Source.notes : Source → List Note
  | text source => Sheet.notes source
  | blocks _ => []

/-- How a sheet is bound: by the engine of the scene, which has its options and its sink, or by a
new engine that logs, with the options of the scene or with the standard ones. -/
inductive Route where
  | engine
  | ownOptions
  | standardOptions
  deriving DecidableEq, Repr

/-- What can be done with a scene. A binding is given by its number in the order of binding, a
handler by its place in it. -/
inductive Step where
  | page (step : PageStep)
  | bind (route : Route) (source : Source)
  | handler (binding place : Nat)
  | fire (binding place : Nat)
  | find (binding : Nat) (selector trigger : String)
  | unbind (binding : Nat)
  | unbindHandler (binding place : Nat)
  | drop (binding : Nat)
  | describe (binding place : Nat)
  | describeAll (binding : Nat)
  | describeEngine
  | engine
  /-- A step that is not known, which seems to concern a binding. -/
  | unknown (binding : Nat)
  /-- A step that lacks a field, and may concern a binding. -/
  | malformed (binding : Option Nat) (field : String)

/-- Why a step cannot be taken. -/
inductive Refusal where
  | noSuchBinding
  | unknownStep
  | missing (field : String)
  | findAfterUnbind
  | describeAfterUnbind
  deriving DecidableEq, Repr

/-- The text of a refusal. -/
def Refusal.message : Refusal → String
  | noSuchBinding => "bindings"
  | unknownStep => "do"
  | missing field => field
  | findAfterUnbind => "find after unbind"
  | describeAfterUnbind => "debug_all after unbind"

/-- What a step answers. -/
inductive Answer where
  | nothing
  | count (n : Nat)
  | truth (b : Bool)
  | place (i : Option Nat)
  | text (s : Option String)
  | handler (h : Option Handler)
  | bound (handlers : List Handler)
  | engine (options : Options)
  | refused (refusal : Refusal)
  deriving DecidableEq, Repr

/-- The text of a handler for developers. -/
def Handler.describe (h : Handler) : String :=
  "BoundHandler \x7b selector: " ++ Text.quoted h.selector ++
    ", trigger: " ++ Text.quoted h.trigger ++
    ", activation: " ++ h.activation.describe ++
    ", actions: " ++ toString h.actions.length ++
    ", fired: " ++ toString h.fired ++ " \x7d"

namespace Scene

/-- The handlers with the given numbers. -/
def handlersAt (s : Scene) (numbers : List Nat) : List Handler :=
  numbers.filterMap fun h => s.handlers[h]?

/-- The text of some handlers for developers. -/
def describeAll (s : Scene) (numbers : List Nat) : String :=
  "Bindings \x7b handlers: [" ++ ", ".intercalate ((s.handlersAt numbers).map Handler.describe) ++
    "] \x7d"

/-- The text of the engine for developers. -/
def describeEngine (s : Scene) : String :=
  "Engine \x7b effects: " ++ s.setup.effects.describe ++
    ", options: " ++ s.setup.options.describe ++ " \x7d"

/-- The options and the sink of a route. -/
def route (s : Scene) : Route → Options × Sink
  | .engine => (s.setup.options, s.setup.sink)
  | .ownOptions => (s.setup.options, .log)
  | .standardOptions => (.standard, .log)

/-- Binds a source by a route. -/
def bind (s : Scene) (route : Route) (source : Source) : Answer × Scene :=
  let (options, sink) := s.route route
  let s := source.notes.foldl (·.log none ·) s
  let (numbers, s) := s.bindBlocks options sink source.sheet
  (.bound (s.handlersAt numbers), { s with bindings := s.bindings ++ [.whole numbers] })

/-- The number of the handler at a place of a binding. -/
def numberAt? (b : Binding) (place : Nat) : Option Nat := b.places[place]?.join

/-- The scene with one binding changed. -/
def setBinding (s : Scene) (b : Nat) (binding : Binding) : Scene :=
  { s with bindings := s.bindings.set b binding }

/-- The place of the first handler for a selector and a trigger. -/
def find? (s : Scene) (numbers : List Nat) (selector trigger : String) : Option Nat :=
  (s.handlersAt numbers).findIdx? fun h => h.selector = selector && h.trigger = trigger

/-- Fires a handler by hand, and gives the number of its firings. -/
def fireByHand (s : Scene) (h : Nat) : Answer × Scene :=
  let s := setOff s.react s h .manual
  ((s.handlers[h]?.map fun handler => .count handler.fired).getD .nothing, s)

/-- Unbinds all handlers that a binding has left. -/
def unbindAll (s : Scene) (b : Nat) (binding : Binding) : Scene :=
  ((binding.places.filterMap id).foldl unbindHandler s).setBinding b .released

/-- Takes one handler out of a binding and unbinds it. The binding falls apart even when the place
is empty. -/
def takeOut (s : Scene) (b : Nat) (binding : Binding) (place : Nat) : Answer × Scene :=
  match binding with
  | .released => (.truth false, s)
  | _ =>
    let s := s.setBinding b (.parts (binding.places.set place none))
    match numberAt? binding place with
    | some h => (.truth true, s.unbindHandler h)
    | none => (.truth false, s)

/-- Does something with a binding that exists. -/
def withBinding (s : Scene) (b : Nat) (action : Binding → Answer × Scene) : Answer × Scene :=
  match s.bindings[b]? with
  | some binding => action binding
  | none => (.refused .noSuchBinding, s)

/-- Takes one step. -/
def step (s : Scene) : Step → Answer × Scene
  | .page step =>
    let (count, s) := perform s.react s step
    (match count with | some n => .count n | none => .nothing, s)
  | .bind route source => s.bind route source
  | .handler b place => s.withBinding b fun binding =>
    (.handler ((numberAt? binding place).bind (s.handlers[·]?)), s)
  | .fire b place => s.withBinding b fun binding =>
    match numberAt? binding place with
    | some h => s.fireByHand h
    | none => (.nothing, s)
  | .find b selector trigger => s.withBinding b fun
    | .whole numbers => (.place (s.find? numbers selector trigger), s)
    | _ => (.refused .findAfterUnbind, s)
  | .unbind b => s.withBinding b fun binding => (.nothing, s.unbindAll b binding)
  | .unbindHandler b place => s.withBinding b fun binding => s.takeOut b binding place
  | .drop b => s.withBinding b fun _ => (.nothing, s.setBinding b .released)
  | .describe b place => s.withBinding b fun binding =>
    (.text (((numberAt? binding place).bind (s.handlers[·]?)).map Handler.describe), s)
  | .describeAll b => s.withBinding b fun
    | .whole numbers => (.text (some (s.describeAll numbers)), s)
    | _ => (.refused .describeAfterUnbind, s)
  | .describeEngine => (.text (some s.describeEngine), s)
  | .engine => (.engine s.setup.options, s)
  | .unknown b => s.withBinding b fun _ => (.refused .unknownStep, s)
  | .malformed none field => (.refused (.missing field), s)
  | .malformed (some b) field => s.withBinding b fun _ => (.refused (.missing field), s)

/-- The handlers that are left of each binding, place by place. -/
def handlerTable (s : Scene) : List (List (Option Handler)) :=
  s.bindings.map fun b => b.places.map fun h => h.bind (s.handlers[·]?)

end Scene

/-- A step that was taken: its answer, what happened, and the scene behind it. -/
structure Taken where
  answer : Answer
  events : List Event
  scene : Scene

/-- Takes steps from a scene on. -/
def Scene.playFrom (s : Scene) : List Step → List Taken
  | [] => []
  | step :: rest =>
    let (answer, after) := s.step step
    let events := (after.journal.drop s.journal.length).map (·.event)
    ⟨answer, events, after⟩ :: after.playFrom rest

/-- Plays a scene from its start. -/
def Setup.play (setup : Setup) (steps : List Step) : List Taken := setup.start.playFrom steps

end TriggerSheet
