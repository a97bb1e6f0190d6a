import TriggerSheet.Proofs.Scene.Calm
import TriggerSheet.Proofs.Scene.Release

/-!
# What a handler has to itself

The handlers of a scene share one page, on which their registrations mix and are numbered from one
counter. What a handler has to itself is left when the registrations of all others are taken away
and the numbers are forgotten. Nothing that another handler does changes it, and what the handler
does depends on it alone.

## Main definitions

* `Solo`, `Scene.solo` — what a handler has to itself
* `Scene.Fair` — the scenes in which effects take no page steps, and in which all is in order
* `Move.Spares` — the moves that leave a handler alone

## Main results

* `Scene.solo_move` — what leaves a handler alone changes nothing that it has to itself
* `Scene.solo_clear`, `Scene.solo_start`, `Scene.solo_fire` — what its own doings change
-/

namespace TriggerSheet

/-! ### Without numbers -/

/-- The callback of a handler with another number. -/
def Callback.renumber (h : Nat) : Callback → Callback
  | event _ => event h
  | press _ e => press h e
  | release _ e => release h e
  | elapse _ e => elapse h e
  | see _ e entered => see h e entered

/-- The listener without its number and that of its handler. -/
def Listener.plain (l : Listener) : Listener :=
  { l with id := 0, callback := l.callback.renumber 0 }

/-- The entry without the number of what it holds. -/
def Entry.plain (entry : Entry) : Entry := { entry with held := entry.held.map fun _ => 0 }

/-- The handler without the numbers of what it registered, and wherever it reports to. -/
def Handler.plain (a : Handler) : Handler :=
  { a with
    sink := .log
    listeners := a.listeners.map fun _ => 0
    entries := a.entries.map Entry.plain }

/-- The event, wherever a diagnostic goes. -/
def Event.plain : Event → Event
  | diagnostic d => logged (.diagnosed d)
  | event => event

/-- The page without registrations. -/
def Page.plain (p : Page) : Page :=
  { p with nextId := 0, listeners := [], observers := [], timers := [] }

/-- Wherever its reports go, a handler does the same with the elements that it found. -/
theorem Handler.map_plain_events (a : Handler) (effects : Registry Effect)
    (found : List Target) :
    (a.events effects found).map Event.plain = a.plain.events effects found := by
  have report (d : Diagnostic) : (a.sink.event d).plain = Sink.log.event d := by
    cases a.sink <;> rfl
  have call (property : String) (c : Call) :
      (c.events effects a.sink found property).map Event.plain =
        c.events effects .log found property := by
    unfold Call.events
    split
    · exact congrArg (· :: []) (report _)
    · split
      · rw [List.map_map]
        rfl
      · exact congrArg (· :: []) (report _)
  have action (act : Action) : (act.events effects a.sink found).map Event.plain =
      act.events effects .log found := by
    simp only [Action.events, List.map_flatMap, call]
  unfold Handler.events
  split
  · exact congrArg (· :: []) (report _)
  · simp only [List.map_cons, List.map_flatMap, action]
    rfl

/-! ### The state of a handler -/

/-- A registration that was made for an entry of a handler. -/
structure Kept (α : Type) where
  /-- An element, or a point of time. -/
  what : α
  entry : Nat
  active : Bool
  /-- Whether the entry holds it. -/
  held : Bool

/-- What a handler has to itself on a page that it shares. -/
@[ext]
structure Solo where
  setup : Setup
  page : Page
  handler : Option Handler
  listeners : List Listener
  observers : List (Kept Target)
  timers : List (Kept Duration)
  /-- What its firings noted, each with its cause. -/
  shown : List (Cause × List Event)

namespace Kept

variable {α : Type}

/-- An entry forgets what it holds. -/
def forget (e : Nat) (k : Kept α) : Kept α := { k with held := k.held && k.entry ≠ e }

/-- An entry gives up what it holds. -/
def cancel (e : Nat) (k : Kept α) : Kept α :=
  { k.forget e with active := k.active && !(k.held && k.entry = e) }

end Kept

namespace Solo

/-- One entry changes. -/
def modifyEntry (x : Solo) (e : Nat) (f : Entry → Entry) : Solo :=
  { x with handler := x.handler.map fun a => { a with entries := a.entries.modify e f } }

/-- An entry forgets what it holds. -/
def forget (x : Solo) (e : Nat) : Solo :=
  { x.modifyEntry e ({ · with held := none }) with
    observers := x.observers.map (Kept.forget e)
    timers := x.timers.map (Kept.forget e) }

/-- An entry gives up what it holds. -/
def clear (x : Solo) (e : Nat) : Solo :=
  { x.modifyEntry e ({ · with held := none }) with
    observers := x.observers.map (Kept.cancel e)
    timers := x.timers.map (Kept.cancel e) }

/-- The element of an entry was seen. -/
def reveal (x : Solo) (e : Nat) : Solo := x.modifyEntry e ({ · with revealed := true })

/-- The timer of an entry starts. -/
def start (x : Solo) (e : Nat) (delay : Duration) : Solo :=
  { x.modifyEntry e ({ · with held := some 0 }) with
    observers := x.observers.map (Kept.forget e)
    timers := x.timers.map (Kept.forget e) ++ [⟨x.page.now.add delay, e, true, true⟩] }

/-- What happens before the handler fires for a cause. -/
def enter (x : Solo) : Cause → Solo
  | .held e => x.forget e
  | .revealed e => (x.reveal e).clear e
  | .event | .alreadyPast | .manual => x

/-- The handler fires. -/
def fire (x : Solo) (cause : Cause) : Solo :=
  match x.handler with
  | none => x
  | some a =>
    let found := x.page.matching a.selector
    { x with
      handler := some (if found = [] then a else { a with fired := a.fired + 1 })
      shown := x.shown ++ [(cause, .query a.selector found :: a.events x.setup.effects found)] }

/-- Time passes, and the timers that are due are inactive. -/
def advance (x : Solo) (time : Duration) : Solo :=
  { x with
    page := x.page.advance time
    timers := x.timers.map fun k =>
      { k with active := k.active && !decide (k.what.nanos ≤ (x.page.now.add time).nanos) } }

/-- The listeners are given up. -/
def mute (x : Solo) : Solo :=
  { x with listeners := x.listeners.map fun l => { l with active := false } }

end Solo

/-- The moves that belong to no firing and leave a handler alone. -/
def Move.Spares (h : Nat) : Move → Prop
  | record firing _ => firing = none
  | listen h' _ _ _ | observe h' _ _ _ | watch h' _ _ | abandon h' _ _ | start h' _ _ | clear h' _
  | mute h' _ | quit h' _ => h' ≠ h
  | rebind _ | add _ | see _ _ _ => True
  | turn _ _ _ | spend | advance _ | fire _ _ | count _ _ _ => False

namespace Move.Spares

variable {m : Move} {h : Nat} (spares : m.Spares h)

include spares

theorem isSilent : Scene.IsSilent m := by
  cases m with
  | record firing event =>
    cases spares
    trivial
  | fire | count => exact spares.elim
  | _ => trivial

theorem not_turns : ¬m.Turns := by
  intro turns
  cases m <;> first | exact turns.elim | exact spares.elim

theorem not_advances : ¬m.Advances := by
  intro advances
  cases m <;> first | exact advances.elim | exact spares.elim

/-- What an entry gives up is not that of a handler that is left alone. -/
theorem not_frees (e : Nat) : ¬m.Frees h e := by
  intro frees
  cases m with
  | abandon | clear | quit => exact spares frees.1
  | fire => exact spares
  | _ => exact frees

end Move.Spares

theorem modify_of_fixed {α : Type} {f : α → α} {l : List α} {i : Nat}
    (fixed : ∀ a, l[i]? = some a → f a = a) : l.modify i f = l := by
  apply List.ext_getElem?
  intro j
  by_cases hit : i = j
  · subst hit
    cases known : l[i]? with
    | none => simp [known]
    | some a => simp [known, fixed a known]
  · simp [hit]

theorem modify_map {α β : Type} {g : α → β} {f : α → α} {f' : β → β}
    (same : ∀ a, g (f a) = f' (g a)) (l : List α) (i : Nat) :
    (l.modify i f).map g = (l.map g).modify i f' := by
  apply List.ext_getElem?
  intro j
  by_cases hit : i = j
  · simp [hit, Function.comp_def, same]
  · simp [hit]

namespace Scene

variable {s t u : Scene} {h h' e : Nat} {m : Move}

/-- What the firings of a handler noted, each with its cause. -/
def shown (s : Scene) (h : Nat) : List (Cause × List Event) :=
  (s.firings.zipIdx.filter (·.1.handler = h)).map fun f =>
    (f.1.cause, (ownEntries s.journal f.2).map (·.event.plain))

/-- What a handler has to itself. -/
def solo (s : Scene) (h : Nat) : Solo where
  setup := s.setup
  page := s.page.plain
  handler := s.handlers[h]?.map Handler.plain
  listeners := (s.page.listeners.filter (·.callback.handler = h)).map Listener.plain
  observers := (s.page.observers.filter (·.handler = h)).map fun o =>
    ⟨o.target, o.entry, o.active, s.held? h o.entry = some o.id⟩
  timers := (s.page.timers.filter (·.handler = h)).map fun t =>
    ⟨t.due, t.entry, t.active, s.held? h t.entry = some t.id⟩
  shown := s.shown h

/-! ### What leaves a handler alone -/

theorem Silent.shown (silent : s.Silent t) (h : Nat) : t.shown h = s.shown h := by
  obtain ⟨tail, journal, none⟩ := silent.journal
  have own (f : Nat) : ownEntries t.journal f = ownEntries s.journal f := by
    have nothing : ownEntries tail f = [] :=
      List.filter_eq_nil_iff.mpr fun entry mem => by simp [(none entry mem).1]
    rw [journal, ownEntries_append, nothing, List.append_nil]
  simp only [Scene.shown, silent.firings, own]

theorem held?_congr (handler : t.handlers[h]? = s.handlers[h]?) (e : Nat) :
    t.held? h e = s.held? h e := by
  rw [held?, held?, entryAt?, entryAt?, handler]

/-- What a handler has to itself is the same if nothing of its own differs. -/
theorem solo_congr (setup : t.setup = s.setup) (page : t.page.plain = s.page.plain)
    (handler : t.handlers[h]? = s.handlers[h]?)
    (listeners : t.page.listeners.filter (·.callback.handler = h) =
      s.page.listeners.filter (·.callback.handler = h))
    (observers : t.page.observers.filter (·.handler = h) =
      s.page.observers.filter (·.handler = h))
    (timers : t.page.timers.filter (·.handler = h) = s.page.timers.filter (·.handler = h))
    (shown : t.shown h = s.shown h) : t.solo h = s.solo h := by
  simp only [solo, setup, page, handler, listeners, observers, timers, shown,
    held?_congr handler]

theorem clear_page_plain (s : Scene) (h e : Nat) : (s.clear h e).page.plain = s.page.plain := by
  rw [clear_page]
  split <;> rfl

/-- But for its registrations, the page changes only when it is turned or time passes. -/
theorem move_page_plain (turns : ¬m.Turns) (still : ¬m.Advances) :
    (s.move m).page.plain = s.page.plain := by
  cases m with
  | turn => exact absurd trivial turns
  | advance => exact absurd trivial still
  | clear h e | quit h e => exact s.clear_page_plain h e
  | fire h cause =>
    rw [move_fire_page]
    cases cause with
    | revealed e => exact s.clear_page_plain h e
    | event | held | alreadyPast | manual => rfl
  | _ => rfl

/-- Clearing an entry makes it hold nothing, whatever it held. -/
theorem clear_handlers (s : Scene) (h e : Nat) :
    (s.clear h e).handlers = (s.hold h e none).handlers := by
  cases held : s.held? h e with
  | some id =>
    rw [clear_of_held?_eq_some held]
    rfl
  | none =>
    rw [clear_of_held?_eq_none held]
    refine (modify_of_fixed fun a known => ?_).symm
    -- The entry is as clearing leaves it, if it is there.
    have same : a.entries.modify e ({ · with held := none }) = a.entries :=
      modify_of_fixed fun entry there => by
        rw [held?, entryAt?, known, Option.bind_some, there, Option.bind_some] at held
        rw [← held]
    rw [same]

section Spares

variable (orderly : s.Orderly) (allowed : s.Allows m) (spares : m.Spares h)

include spares

theorem getElem?_move_of_spares (bound : h < s.handlers.length) :
    (s.move m).handlers[h]? = s.handlers[h]? := by
  cases m with
  | add handler => exact List.getElem?_append_left bound
  | listen | watch | start => exact List.getElem?_modify_ne _ _ spares
  | clear h' e | quit h' e =>
    rw [move, clear_handlers]
    exact List.getElem?_modify_ne _ _ spares
  | turn | advance | fire | count => exact spares.elim
  | _ => rfl

include orderly allowed

theorem ownListeners_move :
    (s.move m).page.listeners.filter (·.callback.handler = h) =
      s.page.listeners.filter (·.callback.handler = h) := by
  have none : (s.newListeners m).filter (·.callback.handler = h) = [] := by
    cases m with
    | listen h' scope event c =>
      have other : c.handler ≠ h := allowed.2.1 ▸ spares
      simp [newListeners, other]
    | _ => rfl
  rw [move_page_listeners, List.filter_append, List.filter_map, none, List.append_nil]
  refine (List.map_congr_left fun l mem => ?_).trans (List.map_id _)
  obtain ⟨there, own⟩ := List.mem_filter.mp mem
  -- Only its own handler gives a listener up.
  refine Listener.without_of_notMem fun cancelled => ?_
  rw [orderly.mutes_of_listener allowed there cancelled] at spares
  exact spares (of_decide_eq_true own)

theorem ownObservers_move :
    (s.move m).page.observers.filter (·.handler = h) =
      s.page.observers.filter (·.handler = h) := by
  have none : (s.newObservers m).filter (·.handler = h) = [] := by
    cases m with
    | observe h' e target threshold =>
      have other : h' ≠ h := spares
      simp [newObservers, other]
    | _ => rfl
  rw [move_page_observers, List.filter_append, List.filter_map, none, List.append_nil]
  refine (List.map_congr_left fun o mem => ?_).trans (List.map_id _)
  obtain ⟨there, own⟩ := List.mem_filter.mp mem
  obtain rfl : o.handler = h := of_decide_eq_true own
  exact Observer.without_of_notMem fun cancelled =>
    spares.not_frees _ (orderly.frees_of_observer allowed there cancelled)

theorem ownTimers_move :
    (s.move m).page.timers.filter (·.handler = h) = s.page.timers.filter (·.handler = h) := by
  have none : (s.newTimers m).filter (·.handler = h) = [] := by
    cases m with
    | start h' e delay =>
      have other : h' ≠ h := spares
      simp [newTimers, other]
    | _ => rfl
  rw [move_page_timers _ _ spares.not_advances, List.filter_append, List.filter_map, none,
    List.append_nil]
  refine (List.map_congr_left fun t mem => ?_).trans (List.map_id _)
  obtain ⟨there, own⟩ := List.mem_filter.mp mem
  obtain rfl : t.handler = h := of_decide_eq_true own
  exact Timer.without_of_notMem fun cancelled =>
    spares.not_frees _ (orderly.frees_of_timer allowed there cancelled)

/-- A move that leaves a handler alone changes nothing that the handler has to itself. -/
theorem solo_move (bound : h < s.handlers.length) : (s.move m).solo h = s.solo h :=
  solo_congr (s.move_setup m) (move_page_plain spares.not_turns spares.not_advances)
    (getElem?_move_of_spares spares bound) (ownListeners_move orderly allowed spares)
    (ownObservers_move orderly allowed spares) (ownTimers_move orderly allowed spares)
    ((silent_move spares.isSilent allowed).shown h)

end Spares

/-- What is noted by no firing changes nothing. -/
theorem solo_record (s : Scene) (event : Event) (still : ¬event.IsEffect) (h : Nat) :
    (s.record none event).solo h = s.solo h :=
  solo_congr rfl rfl rfl rfl rfl rfl ((s.silent_record event still).shown h)

/-- What becomes of an entry of another handler changes nothing. -/
theorem solo_modifyEntry_of_ne (s : Scene) (other : h' ≠ h) (e : Nat) (f : Entry → Entry) :
    (s.modifyEntry h' e f).solo h = s.solo h :=
  solo_congr rfl rfl (List.getElem?_modify_ne _ _ other) rfl rfl rfl
    ((s.silent_modifyEntry h' e f).shown h)

/-- What another handler does before it fires changes nothing. -/
theorem solo_enter_of_ne (orderly : s.Orderly) (other : h' ≠ h) (cause : Cause) :
    (s.enter h' cause).solo h = s.solo h := by
  cases cause with
  | event => exact s.solo_record _ id h
  | held e => exact (solo_modifyEntry_of_ne _ other e _).trans (s.solo_record _ id h)
  | revealed e =>
    -- The page is as if the entry were cleared and nothing else happened.
    have page : (s.enter h' (.revealed e)).page = (s.move (.quit h' e)).page :=
      (s.enter_page h' (.revealed e)).trans (s.clear_page h' e).symm
    refine solo_congr (s.enter_setup h' _) ?_ ?_ ?_ ?_ ?_ ((s.silent_enter h' _).shown h)
    · rw [page]
      exact s.clear_page_plain h' e
    · rw [enter, clear_handlers]
      exact (List.getElem?_modify_ne _ _ other).trans (List.getElem?_modify_ne _ _ other)
    · rw [page]
      exact ownListeners_move orderly trivial other
    · rw [page]
      exact ownObservers_move orderly trivial other
    · rw [page]
      exact ownTimers_move orderly trivial other
  | alreadyPast | manual => rfl

/-! ### What a handler does itself -/

theorem getElem?_modifyEntry (s : Scene) (h e : Nat) (f : Entry → Entry) :
    (s.modifyEntry h e f).handlers[h]? =
      s.handlers[h]?.map fun a => { a with entries := a.entries.modify e f } := by
  rw [modifyEntry, modifyHandler, List.getElem?_modify_eq]
  rfl

/-- An entry changes as it does without numbers. -/
theorem solo_modifyEntry_handler (s : Scene) (h e : Nat) (f f' : Entry → Entry)
    (same : ∀ entry, (f entry).plain = f' entry.plain) :
    (s.modifyEntry h e f).handlers[h]?.map Handler.plain =
      ((s.solo h).modifyEntry e f').handler := by
  rw [getElem?_modifyEntry, Solo.modifyEntry, solo]
  cases s.handlers[h]? with
  | none => rfl
  | some a => simp [Handler.plain, modify_map same]

theorem solo_reveal (s : Scene) (h e : Nat) :
    (s.modifyEntry h e ({ · with revealed := true })).solo h = (s.solo h).reveal e := by
  have held (e' : Nat) : (s.modifyEntry h e ({ · with revealed := true })).held? h e' =
      s.held? h e' := by
    rw [held?, entryAt?_modifyEntry]
    split
    next hit =>
      rw [held?, hit.2]
      cases s.entryAt? h e <;> rfl
    next => rfl
  have handler := s.solo_modifyEntry_handler h e ({ · with revealed := true })
    ({ · with revealed := true }) fun _ => rfl
  have shown := (s.silent_modifyEntry h e ({ · with revealed := true })).shown h
  ext1
  · rfl
  · rfl
  · exact handler
  · rfl
  · simp only [solo, held]
    rfl
  · simp only [solo, held]
    rfl
  · exact shown

/-- What an entry holds when it forgets. -/
theorem held?_forget (s : Scene) (h e e' : Nat) :
    (s.hold h e none).held? h e' = if e' = e then none else s.held? h e' := by
  rw [held?_hold]
  by_cases hit : e' = e
  · simp only [hit, and_self, if_true]
    cases s.entryAt? h e <;> rfl
  · simp [hit]

theorem held?_cleared (s : Scene) (h e e' : Nat) :
    (s.clear h e).held? h e' = if e' = e then none else s.held? h e' := by
  rw [held?_congr (congrArg (·[h]?) (s.clear_handlers h e)), held?_forget]

/-- Whether an entry holds something when another forgets, or it itself. -/
theorem kept_forget (s : Scene) (h e entry id : Nat) :
    decide ((if entry = e then none else s.held? h entry) = some id) =
      (decide (s.held? h entry = some id) && decide (entry ≠ e)) := by
  by_cases hit : entry = e <;> simp [hit]

theorem solo_forget (s : Scene) (h e : Nat) : (s.hold h e none).solo h = (s.solo h).forget e := by
  ext1
  · rfl
  · rfl
  · exact s.solo_modifyEntry_handler h e _ _ fun _ => rfl
  · rfl
  · simp only [solo, held?_forget, kept_forget, Solo.forget, List.map_map]
    rfl
  · simp only [solo, held?_forget, kept_forget, Solo.forget, List.map_map]
    rfl
  · exact (s.silent_modifyEntry h e _).shown h

/-- An entry holds what was made for it, and nothing else. -/
def HoldsOwn (s : Scene) (h e : Nat) : Prop :=
  ∀ id, s.held? h e = some id →
    (∃ t ∈ s.page.timers, t.id = id ∧ t.handler = h ∧ t.entry = e) ∨
      ∃ o ∈ s.page.observers, o.id = id ∧ o.handler = h ∧ o.entry = e

section Clear

variable (numbered : s.page.Numbered) (own : s.HoldsOwn h e)

include numbered own

theorem HoldsOwn.listener {l : Listener} (mem : l ∈ s.page.listeners) :
    l.id ∉ (s.held? h e).toList := by
  intro held
  rcases own l.id (Option.mem_toList.mp held) with ⟨t, there, same, -⟩ | ⟨o, there, same, -⟩
  · exact numbered.listener_ne_timer mem there same.symm
  · exact numbered.listener_ne_observer mem there same.symm

theorem HoldsOwn.observer {o : Observer} (mem : o ∈ s.page.observers)
    (held : s.held? h e = some o.id) : o.entry = e := by
  rcases own o.id held with ⟨t, there, same, -⟩ | ⟨o', there, same, -, entry⟩
  · exact absurd same.symm (numbered.observer_ne_timer mem there)
  · exact numbered.observer_eq there mem same ▸ entry

theorem HoldsOwn.timer {t : Timer} (mem : t ∈ s.page.timers) (held : s.held? h e = some t.id) :
    t.entry = e := by
  rcases own t.id held with ⟨t', there, same, -, entry⟩ | ⟨o, there, same, -⟩
  · exact numbered.timer_eq there mem same ▸ entry
  · exact absurd same (numbered.observer_ne_timer there mem)

omit numbered own in
/-- What is cancelled when an entry is cleared. -/
theorem kept_clear {entry id : Nat} (own : s.held? h e = some id → entry = e) :
    decide (id ∉ (s.held? h e).toList) =
      !(decide (s.held? h entry = some id) && decide (entry = e)) := by
  by_cases held : s.held? h e = some id
  · obtain rfl := own held
    simp [held]
  · by_cases hit : entry = e
    · subst hit
      simp [held]
    · simp [held, hit]

/-- An entry gives up what it holds. -/
theorem solo_clear : (s.clear h e).solo h = (s.solo h).clear e := by
  ext1
  · exact s.clear_setup h e
  · exact s.clear_page_plain h e
  · have handler := s.solo_modifyEntry_handler h e ({ · with held := none })
      ({ · with held := none }) fun _ => rfl
    exact (congrArg (fun handlers => handlers[h]?.map Handler.plain) (s.clear_handlers h e)).trans
      handler
  · simp only [solo, clear_page_listeners, List.filter_map, Solo.clear, Solo.modifyEntry]
    refine congrArg _ ((List.map_congr_left fun l mem => ?_).trans (List.map_id _))
    exact Listener.without_of_notMem (own.listener numbered (List.mem_filter.mp mem).1)
  · simp only [solo, clear_page_observers, List.filter_map, Solo.clear, List.map_map]
    refine List.map_congr_left fun o mem => ?_
    have entry := own.observer numbered (List.mem_filter.mp mem).1
    simp only [Function.comp_apply, Observer.without, Kept.cancel, Kept.forget, held?_cleared,
      kept_forget, kept_clear entry]
  · simp only [solo, clear_page_timers, List.filter_map, Solo.clear, List.map_map]
    refine List.map_congr_left fun t mem => ?_
    have entry := own.timer numbered (List.mem_filter.mp mem).1
    simp only [Function.comp_apply, Timer.without, Kept.cancel, Kept.forget, held?_cleared,
      kept_forget, kept_clear entry]
  · exact (s.silent_clear h e).shown h

end Clear

/-- What a handler does before it fires. -/
theorem solo_enter (orderly : s.Orderly) (h : Nat) (cause : Cause) :
    (s.enter h cause).solo h = (s.solo h).enter cause := by
  cases cause with
  | event => exact s.solo_record _ id h
  | held e => exact (solo_forget _ h e).trans (congrArg (·.forget e) (s.solo_record _ id h))
  | revealed e =>
    let t := (s.record none (.called (.see h e true))).modifyEntry h e
      ({ · with revealed := true })
    have numbered : t.page.Numbered := orderly.numbered
    have own : t.HoldsOwn h e := fun id held => by
      rw [held?_reveal] at held
      exact orderly.held h e id held
    have seen : t.solo h = (s.solo h).reveal e := (solo_reveal _ h e).trans
      (congrArg (·.reveal e) (s.solo_record (.called (.see h e true)) id h))
    exact (solo_clear numbered own).trans (congrArg (·.clear e) seen)
  | alreadyPast | manual => rfl

/-- The timer of an entry starts. -/
theorem solo_start (orderly : s.Orderly) {delay : Duration}
    (allowed : s.Allows (.start h e delay)) :
    (s.move (.start h e delay)).solo h = (s.solo h).start e delay := by
  obtain ⟨has, -⟩ := id allowed
  have held (e' : Nat) : (s.move (.start h e delay)).held? h e' =
      if e' = e then some s.page.nextId else s.held? h e' := by
    obtain ⟨entry, known⟩ := has.exists_entryAt?
    rw [held?, move_entryAt? _ _ has.lt]
    by_cases hit : e' = e
    · simp [hit, known, onEntry]
    · simp [hit, onEntry, held?]
  -- What was made before is not held any more.
  have forgets {entry id : Nat} (lt : id < s.page.nextId) :
      decide ((if entry = e then some s.page.nextId else s.held? h entry) = some id) =
        (decide (s.held? h entry = some id) && decide (entry ≠ e)) := by
    by_cases hit : entry = e
    · simp [hit, Nat.ne_of_gt lt]
    · simp [hit]
  ext1
  · rfl
  · rfl
  · exact solo_modifyEntry_handler _ h e _ _ fun _ => rfl
  · rfl
  · simp only [solo, held, Solo.start, List.map_map]
    refine List.map_congr_left fun o mem => ?_
    have lt := orderly.numbered.lt _ (Page.id_observer_mem (List.mem_filter.mp mem).1)
    simp only [Function.comp_apply, Kept.forget, forgets lt]
  · have timers : (s.move (.start h e delay)).page.timers =
        s.page.timers ++ [⟨s.page.nextId, s.page.now.add delay, h, e, true⟩] := rfl
    simp only [solo, held, Solo.start, timers, List.filter_append, List.map_append, List.map_map]
    refine congrArg₂ _ (List.map_congr_left fun t mem => ?_) (by simp; rfl)
    have lt := orderly.numbered.lt _ (Page.id_timer_mem (List.mem_filter.mp mem).1)
    simp only [Function.comp_apply, Kept.forget, forgets lt]
  · exact (silent_move (m := .start h e delay) trivial allowed).shown h

/-! ### Firing -/

/-- What a firing notes comes behind its beginning. -/
def Tagged (s : Scene) : Prop :=
  ∀ entry ∈ s.journal, ∀ f, entry.firing = some f → f < s.firings.length

/-- What is shown grows by what new firings note. -/
theorem shown_append (tagged : s.Tagged) {firings : List Firing} {tail : List JournalEntry}
    (begun : t.firings = s.firings ++ firings) (journal : t.journal = s.journal ++ tail)
    (new : ∀ f < s.firings.length, ownEntries tail f = []) (h : Nat) :
    t.shown h = s.shown h ++
      ((firings.zipIdx s.firings.length).filter (·.1.handler = h)).map fun f =>
        (f.1.cause, (ownEntries tail f.2).map (·.event.plain)) := by
  rw [shown, begun, journal, List.zipIdx_append, List.filter_append, List.map_append,
    Nat.zero_add]
  refine congrArg₂ _ (List.map_congr_left fun f mem => ?_) (List.map_congr_left fun f mem => ?_)
  · have lt : f.2 < s.firings.length := List.snd_lt_of_mem_zipIdx (List.mem_filter.mp mem).1
    rw [ownEntries_append, new _ lt, List.append_nil]
  · have le := List.le_snd_of_mem_zipIdx (List.mem_filter.mp mem).1
    rw [ownEntries_append, ownEntries_eq_nil le tagged, List.nil_append]

/-- From `s` to `t` a handler fires, and nothing is set off. -/
structure Fired (h : Nat) (cause : Cause) (a : Handler) (s t : Scene) : Prop where
  setup : t.setup = s.setup
  page : t.page = s.page
  handlers : t.handlers = if s.page.matching a.selector = [] then s.handlers
    else s.handlers.modify h fun a => { a with fired := a.fired + 1 }
  firings : t.firings = s.firings ++ [⟨h, cause⟩]
  /-- The query is noted, and what the handler does with the elements found. -/
  journal : ∃ tail, t.journal = s.journal ++ tail ∧
    (∀ entry ∈ tail, entry.firing = some s.firings.length) ∧
    tail.map (·.event) = .query a.selector (s.page.matching a.selector) ::
      a.events s.setup.effects (s.page.matching a.selector)

section Fire

variable {react : Reaction} {a : Handler} {cause : Cause}

theorem fired_of_inert (inert : Inert react s.setup) (known : s.handlers[h]? = some a)
    (cause : Cause) : Fired h cause a s (s.setOff react h cause) := by
  have firings := s.opened_firings h cause (List.getElem?_eq_some_iff.mp known).1
  have journal := s.opened_journal h cause known
  have fields (u : Scene) (setup : u.setup = s.setup) (page : u.page = s.page)
      (handlers : u.handlers = if s.page.matching a.selector = [] then s.handlers
        else s.handlers.modify h fun a => { a with fired := a.fired + 1 })
      (begun : u.firings = (s.opened h cause).firings)
      (noted : u.journal = (s.opened h cause).journal) :
      Fired h cause a s (u.noteAll (some s.firings.length)
        (a.events s.setup.effects (s.page.matching a.selector))) :=
    { setup
      page
      handlers
      firings := begun.trans firings
      journal := by
        refine ⟨_ :: _, by rw [noteAll, noted, journal, List.append_assoc]; rfl, ?_, ?_⟩
        · simp
        · simp [Function.comp_def] }
  rw [setOff_of_inert inert known]
  split
  next none =>
    refine fields _ (s.opened_setup h cause) (s.opened_page h cause) ?_ rfl rfl
    rw [opened_handlers, if_pos none]
  next found =>
    refine fields _ (s.opened_setup h cause) (s.opened_page h cause) ?_ rfl rfl
    rw [countFiring, modifyHandler, opened_handlers, if_neg found]

/-- What a firing of a handler shows is its own. -/
theorem Fired.shown (fired : Fired h' cause a s t) (tagged : s.Tagged) (h : Nat) :
    t.shown h = if h' = h then s.shown h ++ [(cause, .query a.selector
        (s.page.matching a.selector) :: a.plain.events s.setup.effects
          (s.page.matching a.selector))]
      else s.shown h := by
  obtain ⟨tail, journal, own, events⟩ := fired.journal
  have none : ∀ f < s.firings.length, ownEntries tail f = [] := fun f lt =>
    List.filter_eq_nil_iff.mpr fun entry mem => by simp [own entry mem, Nat.ne_of_gt lt]
  have all : ownEntries tail s.firings.length = tail :=
    List.filter_eq_self.mpr fun entry mem => by simp [own entry mem]
  have plain : tail.map (·.event.plain) = .query a.selector (s.page.matching a.selector) ::
      a.plain.events s.setup.effects (s.page.matching a.selector) := by
    have plain := congrArg (List.map Event.plain) events
    rw [List.map_map, List.map_cons, Handler.map_plain_events] at plain
    exact plain
  rw [shown_append tagged fired.firings journal none]
  by_cases own : h' = h
  · simp [own, all, plain]
  · simp [own]

/-- A firing changes nothing that another handler has to itself. -/
theorem Fired.solo_of_ne (fired : Fired h' cause a s t) (tagged : s.Tagged) (other : h' ≠ h) :
    t.solo h = s.solo h := by
  have handler : t.handlers[h]? = s.handlers[h]? := by
    rw [fired.handlers]
    split
    · rfl
    · exact List.getElem?_modify_ne _ _ other
  refine solo_congr fired.setup ?_ handler ?_ ?_ ?_ ?_
  · rw [fired.page]
  · rw [fired.page]
  · rw [fired.page]
  · rw [fired.page]
  · rw [fired.shown tagged, if_neg other]

/-- What a handler has to itself when it fires. -/
theorem Fired.solo (fired : Fired h cause a s t) (tagged : s.Tagged)
    (known : s.handlers[h]? = some a) : t.solo h = (s.solo h).fire cause := by
  have handler : t.handlers[h]? = some (if s.page.matching a.selector = [] then a
      else { a with fired := a.fired + 1 }) := by
    rw [fired.handlers]
    split
    · exact known
    · rw [List.getElem?_modify_eq, known]
      rfl
  have held (e : Nat) : t.held? h e = s.held? h e := by
    rw [held?, held?, entryAt?, entryAt?, handler, known]
    split <;> rfl
  have is : (s.solo h).handler = some a.plain := congrArg (Option.map Handler.plain) known
  have found : (s.solo h).page.matching a.plain.selector = s.page.matching a.selector := rfl
  simp only [Solo.fire, is, found]
  ext1
  · exact fired.setup
  · exact congrArg Page.plain fired.page
  · change t.handlers[h]?.map Handler.plain = _
    rw [handler, Option.map_some]
    split <;> rfl
  · simp only [Scene.solo, fired.page]
  · simp only [Scene.solo, fired.page, held]
  · simp only [Scene.solo, fired.page, held]
  · exact (fired.shown tagged h).trans (if_pos rfl)

end Fire

/-! ### Fair scenes -/

theorem Silent.tagged (silent : s.Silent t) (tagged : s.Tagged) : t.Tagged := by
  obtain ⟨tail, journal, none⟩ := silent.journal
  intro entry mem f is
  rw [journal] at mem
  rw [silent.firings]
  rcases List.mem_append.mp mem with old | new
  · exact tagged entry old f is
  · rw [(none entry new).1] at is
    cases is

theorem Tagged.record (tagged : s.Tagged) {f : Nat} (bound : f < s.firings.length)
    (event : Event) : (s.record (some f) event).Tagged := by
  intro entry mem g is
  rcases List.mem_append.mp mem with old | new
  · exact tagged entry old g is
  · cases List.mem_singleton.mp new
    exact Option.some.inj is ▸ bound

theorem Tagged.opened (tagged : s.Tagged) (h : Nat) (cause : Cause) :
    (s.opened h cause).Tagged := by
  unfold Scene.opened
  split
  · exact tagged
  · have begun : (s.beginFiring h cause).Tagged := fun entry mem f is =>
      Nat.lt_of_lt_of_le (tagged entry mem f is) (by simp [beginFiring])
    exact begun.record (by simp [beginFiring]) _

theorem Tagged.move (tagged : s.Tagged) (allowed : s.Allows m) : (s.move m).Tagged := by
  by_cases silent : IsSilent m
  · exact (silent_move silent allowed).tagged tagged
  cases m with
  | record firing event =>
    cases firing with
    | none => exact absurd trivial silent
    | some f => exact tagged.record (allowed.2.1 f rfl) event
  | count h f note => exact Tagged.record (s := s.countFiring h) tagged allowed _
  | fire h cause => exact Tagged.opened ((s.silent_enter h cause).tagged tagged) h cause
  | _ => exact absurd trivial silent

/-- Effects take no page steps, and all is in order. -/
structure Fair (s : Scene) : Prop where
  orderly : s.Orderly
  quiet : s.setup.Quiet
  tagged : s.Tagged
  listed : s.Listed

theorem Fair.move (fair : s.Fair) (allowed : s.Allows m) : (s.move m).Fair where
  orderly := fair.orderly.move allowed
  quiet := (s.extends_move m).quiet fair.quiet
  tagged := fair.tagged.move allowed
  listed := fair.listed.move allowed

end Scene

end TriggerSheet
