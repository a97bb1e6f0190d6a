import TriggerSheet.Scene.Reaction
import TriggerSheet.Sheet.Reader

/-!
# Binding

To bind a sheet, its clauses are taken in order. A clause whose activation concerns elements asks
the page for them; without any it is reported and leaves no handler. Every other clause gets a
handler, which registers what its activation needs. A clause that waits for something which is
past fires at once.

## Main definitions

* `Scene.wire` — the registrations of a handler
* `Scene.bindClause`, `Scene.bindBlocks` — handlers for clauses
* `Scene.unbindHandler` — cancels all that a handler has registered
-/

namespace TriggerSheet.Scene

section Wiring

variable (react : Reaction)

/-- A handler listens for an event of each target. -/
def listenEach (s : Scene) (h : Nat) (event : String) (targets : List Target) : Scene :=
  targets.foldl (fun s target => s.listen h (.target target) event (.event h)) s

/-- A holding handler listens for the presses of the target of an entry, and for their ends. -/
def wireHold (h : Nat) (s : Scene) (target : Target) (e : Nat) : Scene :=
  ((s.listen h (.target target) EventName.pressStart (.press h e)).listen h (.target target)
    EventName.pressEnd (.release h e)).listen h (.target target)
      EventName.pressLeave (.release h e)

/-- What the observer of a target is told while it is registered. -/
def signalsFor (s : Scene) (target : Target) : List Bool :=
  (s.setup.signals.lookup target).getD []

/-- A revealing handler observes the target of an entry. The page may call back before the
observation can be held; if the element entered the view then, it is cancelled instead. -/
def wireReveal (threshold : Binary64) (h : Nat) (s : Scene) (target : Target) (e : Nat) : Scene :=
  let id := s.page.nextId
  let s := { s with page := s.page.observe target h e }.record none
    (.observe id target threshold)
  let s := (s.signalsFor target).foldl (fun s entered => run react s (.see h e entered)) s
  if s.isRevealed h e then s.cancel id else s.hold h e (some id)

/-- A handler waits for the content of the page. -/
def wireContentReady (s : Scene) (h : Nat) (selector : String) : Scene :=
  let s := s.record none .askContentReady
  if s.page.contentReady then (s.log none (.alreadyReady selector)).setOff react h .alreadyPast
  else s.listen h .document EventName.contentReady (.event h)

/-- A handler listens for an event of the window; loading may be past. -/
def wireWindow (s : Scene) (h : Nat) (selector event : String) : Scene :=
  let s := s.listen h .global event (.event h)
  if event = EventName.load then
    let s := s.record none .askLoaded
    if s.page.loaded then (s.log none (.alreadyLoaded selector)).setOff react h .alreadyPast else s
  else s

/-- Registers what the activation of a handler needs. -/
def wire (threshold : Binary64) (s : Scene) (h : Nat) (selector : String)
    (activation : Activation) (targets : List Target) : Scene :=
  match activation with
  | .singleClick => s.listenEach h EventName.click targets
  | .doubleClick => s.listenEach h EventName.doubleClick targets
  | .element event => s.listenEach h event targets
  | .hold => targets.zipIdx.foldl (fun s (target, e) => wireHold h s target e) s
  | .reveal =>
    targets.zipIdx.foldl (fun s (target, e) => wireReveal react threshold h s target e) s
  | .contentReady => wireContentReady react s h selector
  | .window event => wireWindow react s h selector event

/-- Adds the handler of a clause and registers what it needs. -/
def addHandler (options : Options) (sink : Sink) (s : Scene) (selector : String) (clause : Clause)
    (activation : Activation) (targets : List Target) : Nat × Scene :=
  let h := s.handlers.length
  let handler : Handler :=
    { selector
      trigger := clause.name
      activation
      actions := clause.actions
      sink
      holdThreshold := options.holdThreshold
      fired := 0
      listeners := []
      entries :=
        if activation = .hold ∨ activation = .reveal then targets.map fun _ => Entry.fresh
        else [] }
  let s := wire react options.revealThreshold { s with handlers := s.handlers ++ [handler] } h
    selector activation targets
  (h, s.log none (.boundClause selector clause.name activation targets.length))

/-- Binds a clause, and gives the number of its handler if it gets one. -/
def bindClause (options : Options) (sink : Sink) (s : Scene) (selector : String)
    (clause : Clause) : Option Nat × Scene :=
  let activation := Activation.ofName clause.name
  if activation.needsTargets then
    let targets := s.page.matching selector
    let s := s.record none (.query selector targets)
    if targets.isEmpty then
      (none, s.report none sink (.noMatchingTargets selector clause.name))
    else
      let (h, s) := addHandler react options sink s selector clause activation targets
      (some h, s)
  else
    let (h, s) := addHandler react options sink s selector clause activation []
    (some h, s)

/-- Binds clauses with their selectors in order, and gives the numbers of the handlers. -/
def bindClauses (options : Options) (sink : Sink) (s : Scene) :
    List (String × Clause) → List Nat × Scene
  | [] => ([], s)
  | (selector, clause) :: rest =>
    let (h, s) := bindClause react options sink s selector clause
    let (handlers, s) := bindClauses options sink s rest
    (h.toList ++ handlers, s)

end Wiring

/-- Binds all clauses of a sheet, and gives the numbers of the handlers. -/
def bindBlocks (options : Options) (sink : Sink) (s : Scene) (blocks : List Block) :
    List Nat × Scene :=
  let clauses := blocks.flatMap fun b => b.clauses.map fun c => (b.selector, c)
  let (handlers, s) := bindClauses s.react options sink s clauses
  (handlers, s.log none (.bound handlers.length))

/-- Cancels the listeners of a handler, and then what its entries hold. -/
def unbindHandler (s : Scene) (h : Nat) : Scene :=
  match s.handlers[h]? with
  | none => s
  | some handler =>
    (List.range handler.entries.length).foldl (fun s e => s.clear h e)
      (handler.listeners.foldl cancel s)

end TriggerSheet.Scene
