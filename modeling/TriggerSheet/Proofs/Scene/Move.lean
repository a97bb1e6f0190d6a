import TriggerSheet.Proofs.Scene.Operation

/-!
# Moves of a scene

Everything that happens to a scene is a chain of moves, each of which is done before an effect can
take a page step. What every move keeps, every scene keeps.

## Main definitions

* `Move`, `Scene.move` — the moves, and what they do
* `Scene.Allows` — when a scene makes a move
* `Scene.newListeners`, `Scene.newObservers`, `Scene.newTimers` — what a move registers

## Main results

* `Scene.entryAt?_clear` — clearing an entry leaves the others alone
* `Scene.enter_page` — of the causes of a firing, only a first view cancels anything
* `Scene.run_press`, `Scene.run_see_first`, `Scene.run_see_noted` — what callbacks do
-/

namespace TriggerSheet

/-- The handler that a callback concerns. -/
def Callback.handler : Callback → Nat
  | event h | press h _ | release h _ | elapse h _ | see h _ _ => h

/-- A callback that listeners have. -/
def Callback.IsListened : Callback → Prop
  | event _ | press _ _ | release _ _ => True
  | elapse _ _ | see _ _ _ => False

/-- An event that neither registers nor cancels, and is no callback that may fire a handler. -/
def Event.IsRemark : Event → Prop
  | query _ _ | askContentReady | askLoaded | scheduleNow | effect _ _ _ | diagnostic _
  | logged _ => True
  | called (.press _ _) | called (.release _ _) => True
  | _ => False

/-- An effect is called. -/
def Event.IsEffect : Event → Prop
  | effect _ _ _ => True
  | _ => False

/-- A diagnostic says that a call is skipped. -/
def Diagnostic.isSkip : Diagnostic → Bool
  | unknownEffect _ _ | incompatibleEffect _ _ => true
  | noMatchingTargets _ _ => false

/-- A skipped call is reported, to whichever sink. -/
def Event.isSkip : Event → Bool
  | diagnostic d | logged (.diagnosed d) => d.isSkip
  | _ => false

/-- What happens to a scene at once. -/
inductive Move where
  | record (firing : Option Nat) (event : Event)
  | turn (matched : List (String × List Target)) (loaded contentReady : Bool)
  | spend
  | rebind (bindings : List Binding)
  | add (handler : Handler)
  | listen (h : Nat) (scope : Scope) (event : String) (callback : Callback)
  | observe (h e : Nat) (target : Target) (threshold : Binary64)
  /-- An entry holds the observation that was made for it. -/
  | watch (h e id : Nat)
  /-- The observation of an entry that was revealed before it could be held is cancelled. -/
  | abandon (h e id : Nat)
  /-- The timer of a pressed entry starts. -/
  | start (h e : Nat) (delay : Duration)
  /-- The timer of a pressed or released entry is cancelled. -/
  | clear (h e : Nat)
  /-- An entry is told something that does not fire it. -/
  | see (h e : Nat) (entered : Bool)
  /-- A firing begins and asks its query. -/
  | fire (h : Nat) (cause : Cause)
  /-- A firing found an element. -/
  | count (h firing : Nat) (note : Note)
  | advance (time : Duration)
  /-- A handler that is unbound gives a listener up. -/
  | mute (h id : Nat)
  /-- A handler that is unbound gives up what an entry holds. -/
  | quit (h e : Nat)

/-- The moves that let time pass. -/
def Move.Advances : Move → Prop
  | advance _ => True
  | _ => False

namespace Scene

/-- What the callback of a cause does before the firing begins. -/
def enter (s : Scene) (h : Nat) : Cause → Scene
  | .event => s.record none (.called (.event h))
  | .held e => (s.record none (.called (.elapse h e))).hold h e none
  | .revealed e =>
    ((s.record none (.called (.see h e true))).modifyEntry h e
      ({ · with revealed := true })).clear h e
  | .alreadyPast | .manual => s

/-- The scene after a move. -/
def move (s : Scene) : Move → Scene
  | .record firing event => s.record firing event
  | .turn matched loaded contentReady =>
    { s with page := { s.page with matched, loaded, contentReady } }
  | .spend => { s with budget := s.budget - 1 }
  | .rebind bindings => { s with bindings }
  | .add handler => { s with handlers := s.handlers ++ [handler] }
  | .listen h scope event callback => s.listen h scope event callback
  | .observe h e target threshold =>
    { s with page := s.page.observe target h e }.record none
      (.observe s.page.nextId target threshold)
  | .watch h e id => s.hold h e (some id)
  | .abandon _ _ id | .mute _ id => s.cancel id
  | .start h e delay =>
    ({ s with page := s.page.schedule delay h e }.record none
      (.schedule s.page.nextId delay)).hold h e (some s.page.nextId)
  | .clear h e | .quit h e => s.clear h e
  | .see h e entered => s.record none (.called (.see h e entered))
  | .fire h cause => (s.enter h cause).opened h cause
  | .count h firing note => (s.countFiring h).log (some firing) note
  | .advance time => { s with page := (s.page.advance time).dropDue }

/-- An observation was made for an entry. -/
def IsObserved (s : Scene) (h e : Nat) : Prop :=
  ∃ o ∈ s.page.observers, o.handler = h ∧ o.entry = e

/-- A callback concerns a handler, and an entry of it, that the scene has. -/
def Fits (s : Scene) : Callback → Prop
  | .event h => h < s.handlers.length
  | .press h e | .release h e | .elapse h e => s.HasEntry .hold h e
  | .see h e _ => s.IsObserved h e

/-- When the handler may fire for a cause. -/
def MayFire (s : Scene) (h : Nat) : Cause → Prop
  | .held e => s.HasEntry .hold h e
  | .revealed e => s.IsObserved h e ∧ s.isRevealed h e = false
  | .event | .alreadyPast | .manual => h < s.handlers.length

/-- When a scene makes a move. -/
def Allows (s : Scene) : Move → Prop
  | .record firing event =>
    event.IsRemark ∧ (∀ f, firing = some f → f < s.firings.length) ∧
      (event.IsEffect → firing ≠ none)
  | .add handler => handler.unfired = handler
  | .listen h _ _ callback => callback.IsListened ∧ callback.handler = h ∧ s.Fits callback
  | .observe h e _ _ => s.HasEntry .reveal h e
  | .watch h e id | .abandon h e id =>
    ∃ o ∈ s.page.observers, o.id = id ∧ o.handler = h ∧ o.entry = e
  | .start h e _ => s.HasEntry .hold h e ∧ s.held? h e = none
  | .clear h e => s.HasEntry .hold h e
  | .see h e entered => s.IsObserved h e ∧ (entered = true → s.isRevealed h e = true)
  | .fire h cause => s.MayFire h cause
  | .count _ firing _ => firing < s.firings.length
  | .mute h id => ∃ l ∈ s.page.listeners, l.id = id ∧ l.callback.handler = h
  | .turn _ _ _ | .spend | .rebind _ | .advance _ | .quit _ _ => True

/-- A scene notes what belongs to no firing and calls no effect. -/
theorem allows_note (s : Scene) {event : Event} (remark : event.IsRemark)
    (still : ¬event.IsEffect) : s.Allows (.record none event) :=
  ⟨remark, by simp, fun is => absurd is still⟩

/-! ### What a move adds -/

/-- The listeners that a move adds. -/
def newListeners (s : Scene) : Move → List Listener
  | .listen _ scope event callback => [⟨s.page.nextId, scope, event, callback, true⟩]
  | _ => []

/-- The observers that a move adds. -/
def newObservers (s : Scene) : Move → List Observer
  | .observe h e target _ => [⟨s.page.nextId, target, h, e, true⟩]
  | _ => []

/-- The timers that a move adds. -/
def newTimers (s : Scene) : Move → List Timer
  | .start h e delay => [⟨s.page.nextId, s.page.now.add delay, h, e, true⟩]
  | _ => []

/-- The handlers that a move adds. -/
def newHandlers : Move → List Handler
  | .add handler => [handler]
  | _ => []

section Clear

variable (s : Scene) (h e : Nat)

@[simp]
theorem clear_setup : (s.clear h e).setup = s.setup := by
  unfold clear; split <;> rfl

@[simp]
theorem clear_firings : (s.clear h e).firings = s.firings := by
  unfold clear; split <;> rfl

@[simp]
theorem clear_listeners :
    (s.clear h e).page.listeners.map Listener.renewed = s.page.listeners.map Listener.renewed := by
  unfold clear
  split
  · exact s.page.renewed_listeners_cancel _
  · rfl

@[simp]
theorem clear_observers :
    (s.clear h e).page.observers.map Observer.renewed = s.page.observers.map Observer.renewed := by
  unfold clear
  split
  · exact s.page.renewed_observers_cancel _
  · rfl

@[simp]
theorem clear_timers :
    (s.clear h e).page.timers.map Timer.renewed = s.page.timers.map Timer.renewed := by
  unfold clear
  split
  · exact s.page.renewed_timers_cancel _
  · rfl

@[simp]
theorem clear_unfired :
    (s.clear h e).handlers.map Handler.unfired = s.handlers.map Handler.unfired := by
  unfold clear
  split
  · exact s.unfired_modifyEntry h e _
  · rfl

end Clear

theorem clear_page (s : Scene) (h e : Nat) :
    (s.clear h e).page =
      match s.held? h e with
      | some id => s.page.cancel id
      | none => s.page := by
  cases held : s.held? h e with
  | none => rw [clear_of_held?_eq_none held]
  | some id => rw [clear_of_held?_eq_some held]; rfl

theorem clear_nextId (s : Scene) (h e : Nat) : (s.clear h e).page.nextId = s.page.nextId := by
  rw [clear_page]
  split <;> rfl

theorem clear_ids (s : Scene) (h e : Nat) : (s.clear h e).page.ids = s.page.ids := by
  rw [clear_page]
  split
  · exact s.page.ids_cancel _
  · rfl

theorem clear_listenerIds (s : Scene) (h e : Nat) :
    (s.clear h e).handlers.map Handler.listeners = s.handlers.map Handler.listeners := by
  unfold clear
  split
  · exact s.listeners_modifyEntry h e _
  · rfl

theorem entryAt?_clear (s : Scene) (h e h' e' : Nat) :
    (s.clear h e).entryAt? h' e' =
      if h' = h ∧ e' = e then (s.entryAt? h e).map ({ · with held := none })
      else s.entryAt? h' e' := by
  cases held : s.held? h e with
  | some id =>
    rw [clear_of_held?_eq_some held, ← entryAt?_modifyEntry]
    rfl
  | none =>
    -- An entry that holds nothing is already as clearing leaves it.
    rw [clear_of_held?_eq_none held]
    split
    next hit =>
      obtain ⟨rfl, rfl⟩ := hit
      rw [held?] at held
      rcases known : s.entryAt? h' e' with _ | ⟨holds, revealed⟩
      · rfl
      · rw [known] at held
        cases held
        rfl
    next => rfl

theorem held?_clear (s : Scene) (h e : Nat) : (s.clear h e).held? h e = none := by
  rw [held?, entryAt?_clear, if_pos ⟨rfl, rfl⟩]
  cases s.entryAt? h e <;> rfl

/-! ### Beginning a firing -/

section Enter

/-- That an element was seen does not change what its entry holds. -/
theorem held?_reveal (s : Scene) (h e : Nat) :
    ((s.record none (.called (.see h e true))).modifyEntry h e
      ({ · with revealed := true })).held? h e = s.held? h e := by
  rw [held?, entryAt?_modifyEntry, if_pos ⟨rfl, rfl⟩, held?, record_entryAt?]
  cases s.entryAt? h e <;> rfl

variable (s : Scene) (h : Nat) (cause : Cause)

@[simp]
theorem enter_setup : (s.enter h cause).setup = s.setup := by
  cases cause <;> simp [enter, hold, modifyEntry, modifyHandler]

@[simp]
theorem enter_firings : (s.enter h cause).firings = s.firings := by
  cases cause <;> simp [enter, hold, modifyEntry, modifyHandler]

@[simp]
theorem enter_unfired :
    (s.enter h cause).handlers.map Handler.unfired = s.handlers.map Handler.unfired := by
  cases cause <;> simp [enter, hold, unfired_modifyEntry]

theorem enter_handlers_length : (s.enter h cause).handlers.length = s.handlers.length := by
  simpa only [List.length_map] using congrArg List.length (s.enter_unfired h cause)

@[simp]
theorem enter_listeners : (s.enter h cause).page.listeners.map Listener.renewed =
    s.page.listeners.map Listener.renewed := by
  cases cause <;> simp [enter, hold, modifyEntry, modifyHandler]

@[simp]
theorem enter_observers : (s.enter h cause).page.observers.map Observer.renewed =
    s.page.observers.map Observer.renewed := by
  cases cause <;> simp [enter, hold, modifyEntry, modifyHandler]

@[simp]
theorem enter_timers : (s.enter h cause).page.timers.map Timer.renewed =
    s.page.timers.map Timer.renewed := by
  cases cause <;> simp [enter, hold, modifyEntry, modifyHandler]

theorem opened_setup : (s.opened h cause).setup = s.setup := by
  unfold opened; split <;> rfl

theorem opened_page : (s.opened h cause).page = s.page := by
  unfold opened; split <;> rfl

theorem opened_handlers : (s.opened h cause).handlers = s.handlers := by
  unfold opened; split <;> rfl

theorem opened_firings (known : h < s.handlers.length) :
    (s.opened h cause).firings = s.firings ++ [⟨h, cause⟩] := by
  rw [opened_eq (List.getElem?_eq_getElem known)]
  rfl

theorem opened_journal {handler : Handler} (known : s.handlers[h]? = some handler) :
    (s.opened h cause).journal = s.journal ++
      [⟨some s.firings.length, .query handler.selector (s.page.matching handler.selector),
        s.handlers.map (·.fired)⟩] := by
  rw [opened_eq known]
  rfl

theorem enter_page :
    (s.enter h cause).page =
      match cause with
      | .revealed e =>
        match s.held? h e with
        | some id => s.page.cancel id
        | none => s.page
      | _ => s.page := by
  cases cause with
  | revealed e =>
    simp only [enter, clear_page, held?_reveal]
    rfl
  | event | held e | alreadyPast | manual => rfl

end Enter

/-! ### Callbacks -/

section Run

variable {react : Reaction} {s : Scene} {h e : Nat} {entered : Bool}

/-- A press gives up what is pending, and starts the timer of its entry. -/
theorem run_press {handler : Handler} (known : s.handlers[h]? = some handler) (e : Nat) :
    run react s (.press h e) =
      startTimer react ((s.record none (.called (.press h e))).clear h e) h e
        handler.holdThreshold := by
  simp only [run, respond, press, record_handlers, known]

/-- The first entry of an element into the view sets its handler off. -/
theorem run_see_first (fresh : s.isRevealed h e = false) :
    run react s (.see h e true) = (s.enter h (.revealed e)).setOff react h (.revealed e) :=
  if_pos (by simp [record_isRevealed, fresh])

/-- Whatever else an observer is told is only noted. -/
theorem run_see_noted (told : entered = true → s.isRevealed h e = true) :
    run react s (.see h e entered) = s.record none (.called (.see h e entered)) := by
  refine if_neg fun first => ?_
  obtain ⟨enters, fresh⟩ := Bool.and_eq_true_iff.mp first
  simp [record_isRevealed, told enters] at fresh

end Run

end Scene

end TriggerSheet
