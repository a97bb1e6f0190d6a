import Mathlib.Data.List.Count
import TriggerSheet.Proofs.Scene.Orderly

/-!
# What a move cancels

Registrations of a page only ever become inactive, and never without a reason: a timer or an
observer when the entry that it was made for gives it up, a listener when its handler is unbound, a
timer also when it is due.

## Main definitions

* `Scene.cancels` — the registrations that a move cancels
* `Move.Frees` — a move makes an entry give up what it holds
* `Scene.timersOf`, `Scene.observersOf`, `Scene.listenersOf` — the registrations made for an entry

## Main results

* `Scene.Orderly.frees_of_timer`, `Scene.Orderly.frees_of_observer`,
  `Scene.Orderly.mutes_of_listener` — why a registration is cancelled
* `Scene.Orderly.timersOf_move`, `Scene.Orderly.observersOf_move`,
  `Scene.Orderly.listenersOf_move` — a move leaves the registrations of other entries alone
-/

namespace TriggerSheet

/-- A listener after some registrations are cancelled. -/
def Listener.without (ids : List Nat) (l : Listener) : Listener :=
  { l with active := l.active && l.id ∉ ids }

/-- An observer after some registrations are cancelled. -/
def Observer.without (ids : List Nat) (o : Observer) : Observer :=
  { o with active := o.active && o.id ∉ ids }

/-- A timer after some registrations are cancelled. -/
def Timer.without (ids : List Nat) (t : Timer) : Timer :=
  { t with active := t.active && t.id ∉ ids }

theorem Listener.without_nil : Listener.without [] = fun l => l := by
  funext l
  simp [without]

theorem Observer.without_nil : Observer.without [] = fun o => o := by
  funext o
  simp [without]

theorem Timer.without_nil : Timer.without [] = fun t => t := by
  funext t
  simp [without]

theorem Listener.without_of_notMem {ids : List Nat} {l : Listener} (other : l.id ∉ ids) :
    l.without ids = l := by
  simp [without, other]

theorem Observer.without_of_notMem {ids : List Nat} {o : Observer} (other : o.id ∉ ids) :
    o.without ids = o := by
  simp [without, other]

theorem Timer.without_of_notMem {ids : List Nat} {t : Timer} (other : t.id ∉ ids) :
    t.without ids = t := by
  simp [without, other]

namespace Page

variable (p : Page) (id : Nat)

theorem cancel_listeners : (p.cancel id).listeners = p.listeners.map (Listener.without [id]) := by
  simp [cancel, Listener.without]

theorem cancel_observers : (p.cancel id).observers = p.observers.map (Observer.without [id]) := by
  simp [cancel, Observer.without]

theorem cancel_timers : (p.cancel id).timers = p.timers.map (Timer.without [id]) := by
  simp [cancel, Timer.without]

end Page

/-- A move makes an entry give up what it holds, or what it was about to hold. -/
def Move.Frees (h e : Nat) : Move → Prop
  | abandon h' e' _ | clear h' e' | quit h' e' | fire h' (.revealed e') => h' = h ∧ e' = e
  | _ => False

/-- What a move notes before it cancels something. -/
def Move.heard : Move → List Event
  | fire h (.revealed e) => [.called (.see h e true)]
  | _ => []

namespace Scene

variable {s : Scene}

/-- The registrations that a move cancels. -/
def cancels (s : Scene) : Move → List Nat
  | .abandon _ _ id | .mute _ id => [id]
  | .clear h e | .quit h e | .fire h (.revealed e) => (s.held? h e).toList
  | _ => []

section Page

variable (s : Scene) (m : Move)

theorem clear_page_listeners (h e : Nat) : (s.clear h e).page.listeners =
    s.page.listeners.map (Listener.without (s.held? h e).toList) := by
  rw [clear_page]
  cases s.held? h e with
  | none => simp [Listener.without_nil]
  | some id => exact s.page.cancel_listeners id

theorem clear_page_observers (h e : Nat) : (s.clear h e).page.observers =
    s.page.observers.map (Observer.without (s.held? h e).toList) := by
  rw [clear_page]
  cases s.held? h e with
  | none => simp [Observer.without_nil]
  | some id => exact s.page.cancel_observers id

theorem clear_page_timers (h e : Nat) : (s.clear h e).page.timers =
    s.page.timers.map (Timer.without (s.held? h e).toList) := by
  rw [clear_page]
  cases s.held? h e with
  | none => simp [Timer.without_nil]
  | some id => exact s.page.cancel_timers id

/-- A first view cancels what its entry holds; no other firing cancels anything. -/
theorem move_fire_page (h : Nat) (cause : Cause) : (s.move (.fire h cause)).page =
    match cause with
    | .revealed e => (s.clear h e).page
    | _ => s.page := by
  rw [move, opened_page, enter_page]
  cases cause with
  | revealed e => exact (s.clear_page h e).symm
  | event | held e | alreadyPast | manual => rfl

/-- The listeners after a move. -/
theorem move_page_listeners : (s.move m).page.listeners =
    s.page.listeners.map (Listener.without (s.cancels m)) ++ s.newListeners m := by
  cases m with
  | abandon h e id | mute h id => simp [move, cancels, newListeners, cancel, Page.cancel_listeners]
  | clear h e | quit h e => simp [move, cancels, newListeners, clear_page_listeners]
  | fire h cause =>
    rw [move_fire_page]
    cases cause <;> simp [cancels, newListeners, clear_page_listeners, Listener.without_nil]
  | _ =>
    simp [move, cancels, newListeners, Listener.without_nil, hold, modifyEntry, modifyHandler,
      listen, countFiring, log, Page.listen, Page.observe, Page.schedule, Page.advance,
      Page.dropDue]

/-- The observers after a move. -/
theorem move_page_observers : (s.move m).page.observers =
    s.page.observers.map (Observer.without (s.cancels m)) ++ s.newObservers m := by
  cases m with
  | abandon h e id | mute h id => simp [move, cancels, newObservers, cancel, Page.cancel_observers]
  | clear h e | quit h e => simp [move, cancels, newObservers, clear_page_observers]
  | fire h cause =>
    rw [move_fire_page]
    cases cause <;> simp [cancels, newObservers, clear_page_observers, Observer.without_nil]
  | _ =>
    simp [move, cancels, newObservers, Observer.without_nil, hold, modifyEntry, modifyHandler,
      listen, countFiring, log, Page.listen, Page.observe, Page.schedule, Page.advance,
      Page.dropDue]

/-- The timers after a move that does not let time pass. -/
theorem move_page_timers (still : ¬m.Advances) : (s.move m).page.timers =
    s.page.timers.map (Timer.without (s.cancels m)) ++ s.newTimers m := by
  cases m with
  | abandon h e id | mute h id => simp [move, cancels, newTimers, cancel, Page.cancel_timers]
  | clear h e | quit h e => simp [move, cancels, newTimers, clear_page_timers]
  | fire h cause =>
    rw [move_fire_page]
    cases cause <;> simp [cancels, newTimers, clear_page_timers, Timer.without_nil]
  | advance time => exact absurd trivial still
  | _ =>
    simp [move, cancels, newTimers, Timer.without_nil, hold, modifyEntry, modifyHandler, listen,
      countFiring, log, Page.listen, Page.observe, Page.schedule]

end Page

/-! ### Why a registration is cancelled -/

/-- What a move cancels belongs to a listener of a handler that is unbound, or was made for an
entry that gives it up. -/
theorem Orderly.owner_of_cancels (orderly : s.Orderly) {m : Move} (allowed : s.Allows m) {id : Nat}
    (mem : id ∈ s.cancels m) :
    (∃ l ∈ s.page.listeners, l.id = id ∧ m = .mute l.callback.handler id) ∨
      (∃ t ∈ s.page.timers, t.id = id ∧ m.Frees t.handler t.entry) ∨
      ∃ o ∈ s.page.observers, o.id = id ∧ m.Frees o.handler o.entry := by
  -- What an entry gives up was made for it, as a timer or as an observer.
  have freed {h e : Nat} (frees : m.Frees h e) (held : s.held? h e = some id) :
      (∃ l ∈ s.page.listeners, l.id = id ∧ m = .mute l.callback.handler id) ∨
        (∃ t ∈ s.page.timers, t.id = id ∧ m.Frees t.handler t.entry) ∨
        ∃ o ∈ s.page.observers, o.id = id ∧ m.Frees o.handler o.entry := by
    rcases orderly.held h e id held with ⟨t, there, same, rfl, rfl⟩ | ⟨o, there, same, rfl, rfl⟩
    · exact .inr (.inl ⟨t, there, same, frees⟩)
    · exact .inr (.inr ⟨o, there, same, frees⟩)
  cases m with
  | mute h id' =>
    cases List.mem_singleton.mp mem
    obtain ⟨l, there, same, rfl⟩ := allowed
    exact .inl ⟨l, there, same, rfl⟩
  | abandon h e id' =>
    cases List.mem_singleton.mp mem
    obtain ⟨o, there, same, rfl, rfl⟩ := allowed
    exact .inr (.inr ⟨o, there, same, rfl, rfl⟩)
  | clear h e | quit h e => exact freed ⟨rfl, rfl⟩ (Option.mem_toList.mp mem)
  | fire h cause =>
    cases cause with
    | revealed e => exact freed ⟨rfl, rfl⟩ (Option.mem_toList.mp mem)
    | event | held e | alreadyPast | manual => cases mem
  | _ => cases mem

theorem Orderly.frees_of_timer (orderly : s.Orderly) {m : Move} (allowed : s.Allows m) {t : Timer}
    (there : t ∈ s.page.timers) (mem : t.id ∈ s.cancels m) : m.Frees t.handler t.entry := by
  -- Ids are not shared, so what is cancelled under the id is this timer.
  rcases orderly.owner_of_cancels allowed mem with
    ⟨l, there', same, _⟩ | ⟨t', there', same, frees⟩ | ⟨o, there', same, _⟩
  · exact absurd same (orderly.numbered.listener_ne_timer there' there)
  · exact orderly.numbered.timer_eq there' there same ▸ frees
  · exact absurd same (orderly.numbered.observer_ne_timer there' there)

theorem Orderly.frees_of_observer (orderly : s.Orderly) {m : Move} (allowed : s.Allows m)
    {o : Observer} (there : o ∈ s.page.observers) (mem : o.id ∈ s.cancels m) :
    m.Frees o.handler o.entry := by
  rcases orderly.owner_of_cancels allowed mem with
    ⟨l, there', same, _⟩ | ⟨t, there', same, _⟩ | ⟨o', there', same, frees⟩
  · exact absurd same (orderly.numbered.listener_ne_observer there' there)
  · exact absurd same.symm (orderly.numbered.observer_ne_timer there there')
  · exact orderly.numbered.observer_eq there' there same ▸ frees

theorem Orderly.mutes_of_listener (orderly : s.Orderly) {m : Move} (allowed : s.Allows m)
    {l : Listener} (there : l ∈ s.page.listeners) (mem : l.id ∈ s.cancels m) :
    m = .mute l.callback.handler l.id := by
  rcases orderly.owner_of_cancels allowed mem with
    ⟨l', there', same, mutes⟩ | ⟨t, there', same, _⟩ | ⟨o, there', same, _⟩
  · rw [← orderly.numbered.listener_eq there' there same]
    rw [same]
    exact mutes
  · exact absurd same.symm (orderly.numbered.listener_ne_timer there there')
  · exact absurd same.symm (orderly.numbered.listener_ne_observer there there')

/-! ### What a move cancels is noted -/

section Noted

variable {m : Move}

/-- What a move cancels is noted, behind what the move is told. -/
theorem move_events_cancels (allowed : s.Allows m) :
    ∃ before after, (s.move m).events =
        s.events ++ (before ++ ((s.cancels m).map .cancel ++ after)) ∧
      (∀ id, .cancel id ∉ before ∧ .cancel id ∉ after) ∧ (s.cancels m ≠ [] → before = m.heard) := by
  obtain ⟨asked, remarks, grows⟩ := s.move_events m
  have still (id : Nat) : Event.cancel id ∉ asked := fun mem => remarks _ mem
  rw [List.append_assoc] at grows
  cases m with
  | abandon h e id | mute h id | clear h e | quit h e =>
    exact ⟨[], asked, grows, fun id => ⟨List.not_mem_nil, still id⟩, fun _ => rfl⟩
  | fire h cause =>
    cases cause with
    | revealed e =>
      exact ⟨[.called (.see h e true)], asked, grows, fun id => ⟨by simp, still id⟩, fun _ => rfl⟩
    | event | held e | alreadyPast | manual =>
      exact ⟨_, asked, grows, fun id => ⟨by simp [newEvents], still id⟩, absurd rfl⟩
  | record firing event =>
    refine ⟨[event], asked, grows, fun id => ⟨fun mem => ?_, still id⟩, absurd rfl⟩
    exact (List.mem_singleton.mp mem ▸ allowed.1 : Event.IsRemark (.cancel id)).elim
  | _ => exact ⟨_, asked, grows, fun id => ⟨by simp [newEvents], still id⟩, absurd rfl⟩

theorem length_cancels_le (s : Scene) (m : Move) : (s.cancels m).length ≤ 1 := by
  have held (h e : Nat) : (s.held? h e).toList.length ≤ 1 := by cases s.held? h e <;> simp
  cases m with
  | fire h cause => cases cause <;> first | exact held _ _ | exact Nat.zero_le 1
  | clear | quit => exact held _ _
  | _ => simp [cancels]

/-- A cancellation was noted before, or the move notes it behind what it is told. -/
theorem split_cancel_move (allowed : s.Allows m) {before after : List Event} {id : Nat}
    (split : (s.move m).events = before ++ .cancel id :: after) :
    (∃ after', s.events = before ++ .cancel id :: after') ∨
      id ∈ s.cancels m ∧ before = s.events ++ m.heard := by
  obtain ⟨first, last, grows, still, heard⟩ := s.move_events_cancels allowed
  have old_or_new : (∃ after', s.events = before ++ .cancel id :: after') ∨
      ∃ rest, before = s.events ++ rest ∧
        first ++ ((s.cancels m).map .cancel ++ last) = rest ++ .cancel id :: after := by
    rw [split] at grows
    rcases List.append_eq_append_iff.mp grows with ⟨rest, old, new⟩ | ⟨rest, eq, new⟩
    · cases rest with
      | cons event rest =>
        obtain ⟨rfl, -⟩ := List.cons.inj new
        exact .inl ⟨rest, old⟩
      | nil => exact .inr ⟨[], by simpa using old.symm, new.symm⟩
    · exact .inr ⟨rest, eq, new⟩
  refine old_or_new.imp_right fun ⟨rest, eq, new⟩ => ?_
  -- At most one registration is cancelled, so this is the one.
  have one := s.length_cancels_le m
  rcases all : s.cancels m with _ | ⟨id', _ | _⟩
  · have mem : Event.cancel id ∈ first ++ last := by
      rw [all, List.map_nil, List.nil_append] at new
      rw [new]
      simp
    exact absurd (List.mem_append.mp mem) (not_or.mpr (still id))
  · rw [all] at new
    obtain ⟨rfl, same, -⟩ :=
      (List.append_cons_inj_of_notMem (still id).1 (still id).2).mp new
    cases same
    exact ⟨List.mem_singleton_self _, by rw [eq, heard (by simp [all])]⟩
  · rw [all] at one
    simp at one

/-- What is cancelled was cancelled before, or is cancelled by the move. -/
theorem cancel_mem_move (allowed : s.Allows m) {id : Nat} :
    .cancel id ∈ (s.move m).events ↔ .cancel id ∈ s.events ∨ id ∈ s.cancels m := by
  obtain ⟨first, last, grows, still, -⟩ := s.move_events_cancels allowed
  simp [grows, still id]

theorem count_cancel_move (allowed : s.Allows m) (id : Nat) :
    (s.move m).events.count (.cancel id) =
      s.events.count (.cancel id) + (s.cancels m).count id := by
  obtain ⟨first, last, grows, still, -⟩ := s.move_events_cancels allowed
  have injective : Function.Injective Event.cancel := fun _ _ same => Event.cancel.inj same
  simp [grows, List.count_append, List.count_eq_zero.mpr (still id).1,
    List.count_eq_zero.mpr (still id).2, List.count_map_of_injective _ _ injective]

end Noted

/-! ### The registrations of one entry -/

/-- The timers that were made for an entry. -/
def timersOf (s : Scene) (h e : Nat) : List Timer :=
  s.page.timers.filter fun t => t.handler = h ∧ t.entry = e

/-- The observers that were made for an entry. -/
def observersOf (s : Scene) (h e : Nat) : List Observer :=
  s.page.observers.filter fun o => o.handler = h ∧ o.entry = e

/-- The listeners for the presses of an entry and for their ends. -/
def listenersOf (s : Scene) (h e : Nat) : List Listener :=
  s.page.listeners.filter fun l => l.callback = .press h e ∨ l.callback = .release h e

theorem mem_timersOf {h e : Nat} {t : Timer} :
    t ∈ s.timersOf h e ↔ t ∈ s.page.timers ∧ t.handler = h ∧ t.entry = e := by
  simp [timersOf]

theorem mem_observersOf {h e : Nat} {o : Observer} :
    o ∈ s.observersOf h e ↔ o ∈ s.page.observers ∧ o.handler = h ∧ o.entry = e := by
  simp [observersOf]

theorem mem_listenersOf {h e : Nat} {l : Listener} :
    l ∈ s.listenersOf h e ↔
      l ∈ s.page.listeners ∧ (l.callback = .press h e ∨ l.callback = .release h e) := by
  simp [listenersOf]

/-- The timers of an entry after a move that does not let time pass. -/
theorem timersOf_move (s : Scene) (m : Move) (still : ¬m.Advances) (h e : Nat) :
    (s.move m).timersOf h e = (s.timersOf h e).map (Timer.without (s.cancels m)) ++
      (s.newTimers m).filter fun t => t.handler = h ∧ t.entry = e := by
  rw [timersOf, s.move_page_timers m still, List.filter_append, List.filter_map]
  rfl

/-- The timers of an entry that a move does not free. -/
theorem Orderly.timersOf_move (orderly : s.Orderly) {m : Move} (allowed : s.Allows m) {h e : Nat}
    (keeps : ¬m.Frees h e) (still : ¬m.Advances) :
    (s.move m).timersOf h e =
      s.timersOf h e ++ (s.newTimers m).filter fun t => t.handler = h ∧ t.entry = e := by
  rw [Scene.timersOf_move s m still]
  congr 1
  refine (List.map_congr_left fun t mem => ?_).trans (List.map_id _)
  obtain ⟨there, rfl, rfl⟩ := mem_timersOf.mp mem
  exact Timer.without_of_notMem fun cancelled =>
    keeps (orderly.frees_of_timer allowed there cancelled)

/-- The observers of an entry after a move. -/
theorem observersOf_move (s : Scene) (m : Move) (h e : Nat) :
    (s.move m).observersOf h e = (s.observersOf h e).map (Observer.without (s.cancels m)) ++
      (s.newObservers m).filter fun o => o.handler = h ∧ o.entry = e := by
  rw [observersOf, s.move_page_observers m, List.filter_append, List.filter_map]
  rfl

/-- The observers of an entry that a move does not free. -/
theorem Orderly.observersOf_move (orderly : s.Orderly) {m : Move} (allowed : s.Allows m) {h e : Nat}
    (keeps : ¬m.Frees h e) :
    (s.move m).observersOf h e =
      s.observersOf h e ++ (s.newObservers m).filter fun o => o.handler = h ∧ o.entry = e := by
  rw [Scene.observersOf_move]
  congr 1
  refine (List.map_congr_left fun o mem => ?_).trans (List.map_id _)
  obtain ⟨there, rfl, rfl⟩ := mem_observersOf.mp mem
  exact Observer.without_of_notMem fun cancelled =>
    keeps (orderly.frees_of_observer allowed there cancelled)

/-- The listeners of an entry after a move. -/
theorem listenersOf_move (s : Scene) (m : Move) (h e : Nat) :
    (s.move m).listenersOf h e = (s.listenersOf h e).map (Listener.without (s.cancels m)) ++
      (s.newListeners m).filter fun l => l.callback = .press h e ∨ l.callback = .release h e := by
  rw [listenersOf, s.move_page_listeners m, List.filter_append, List.filter_map]
  rfl

/-- The listeners of an entry, unless its handler is unbound. -/
theorem Orderly.listenersOf_move (orderly : s.Orderly) {m : Move} (allowed : s.Allows m) {h e : Nat}
    (keeps : ∀ id, m ≠ .mute h id) :
    (s.move m).listenersOf h e = s.listenersOf h e ++
      (s.newListeners m).filter fun l => l.callback = .press h e ∨ l.callback = .release h e := by
  rw [Scene.listenersOf_move]
  congr 1
  refine (List.map_congr_left fun l mem => ?_).trans (List.map_id _)
  obtain ⟨there, own⟩ := mem_listenersOf.mp mem
  have handler : l.callback.handler = h := by rcases own with own | own <;> rw [own] <;> rfl
  exact Listener.without_of_notMem fun cancelled =>
    keeps l.id (handler ▸ orderly.mutes_of_listener allowed there cancelled)

end Scene

end TriggerSheet
