import TriggerSheet.Proofs.Scene.Reveal
import TriggerSheet.Proofs.Scene.Settle

/-!
# What unbinding releases

A handler that is unbound gives up every registration that was made for it: its listeners are in its
list, its observers and its timers are held by its entries. Nothing of another handler is touched.

## Main definitions

* `Page.release` — the page without the registrations of some handlers
* `Scene.Released` — no registration of a handler is active
* `Scene.Apart` — nothing differs but what concerns some handlers
* `Scene.Listed` — every listener is in the list of its handler

## Main results

* `Scene.leads_apart_step` — a step that unbinds touches nothing of the handlers that stay
* `Scene.listed_after` — no listener is missing in the list of its handler
* `Scene.released_step` — no registration of a handler that was just unbound is active
-/

namespace TriggerSheet

namespace Page

variable {p : Page} {gone : List Nat} {id : Nat}

/-- The page on which all registrations of some handlers are inactive. -/
def release (p : Page) (gone : List Nat) : Page :=
  { p with
    listeners := p.listeners.map fun l => { l with active := l.active && l.callback.handler ∉ gone }
    observers := p.observers.map fun o => { o with active := o.active && o.handler ∉ gone }
    timers := p.timers.map fun t => { t with active := t.active && t.handler ∉ gone } }

/-- To cancel what belongs to a handler makes no difference when the handler is released. -/
theorem release_cancel (listeners : ∀ l ∈ p.listeners, l.id = id → l.callback.handler ∈ gone)
    (observers : ∀ o ∈ p.observers, o.id = id → o.handler ∈ gone)
    (timers : ∀ t ∈ p.timers, t.id = id → t.handler ∈ gone) :
    (p.cancel id).release gone = p.release gone := by
  simp only [release, cancel, List.map_map, Page.mk.injEq, true_and]
  refine ⟨List.map_congr_left fun l mem => ?_, List.map_congr_left fun o mem => ?_,
    List.map_congr_left fun t mem => ?_⟩
  · by_cases own : l.id = id
    · simp [own, listeners l mem own]
    · simp [own]
  · by_cases own : o.id = id
    · simp [own, observers o mem own]
    · simp [own]
  · by_cases own : t.id = id
    · simp [own, timers t mem own]
    · simp [own]

end Page

/-- The moves that give registrations up when handlers are unbound, and take the handlers back. -/
def Move.GivesUp : Move → Prop
  | mute _ _ | quit _ _ | rebind _ => True
  | _ => False

namespace Scene

variable {s t : Scene} {h e : Nat} {m : Move} {gone : List Nat} {step : Step}

/-- No registration of a handler is active. -/
structure Released (s : Scene) (h : Nat) : Prop where
  listeners : ∀ l ∈ s.page.listeners, l.callback.handler = h → l.active = false
  observers : ∀ o ∈ s.page.observers, o.handler = h → o.active = false
  timers : ∀ t ∈ s.page.timers, t.handler = h → t.active = false

/-- A page on which handlers are released is as if they were. -/
theorem release_of_released (released : ∀ h ∈ gone, s.Released h) :
    s.page.release gone = s.page := by
  have listeners : s.page.listeners.map (fun l =>
      { l with active := l.active && l.callback.handler ∉ gone }) = s.page.listeners := by
    refine (List.map_congr_left fun l mem => ?_).trans (List.map_id _)
    by_cases own : l.callback.handler ∈ gone
    · simp [own, ((released _ own).listeners l mem rfl).symm]
    · simp [own]
  have observers : s.page.observers.map (fun o =>
      { o with active := o.active && o.handler ∉ gone }) = s.page.observers := by
    refine (List.map_congr_left fun o mem => ?_).trans (List.map_id _)
    by_cases own : o.handler ∈ gone
    · simp [own, ((released _ own).observers o mem rfl).symm]
    · simp [own]
  have timers : s.page.timers.map (fun t =>
      { t with active := t.active && t.handler ∉ gone }) = s.page.timers := by
    refine (List.map_congr_left fun t mem => ?_).trans (List.map_id _)
    by_cases own : t.handler ∈ gone
    · simp [own, ((released _ own).timers t mem rfl).symm]
    · simp [own]
  rw [Page.release, listeners, observers, timers]

/-! ### What stays -/

/-- Nothing differs but the registrations of some handlers, and what these handlers keep. -/
structure Apart (gone : List Nat) (s t : Scene) : Prop where
  page : t.page.release gone = s.page.release gone
  firings : t.firings = s.firings
  handlers : ∀ h ∉ gone, t.handlers[h]? = s.handlers[h]?

theorem chained_apart (gone : List Nat) : Chained (Apart gone) where
  refl _ := ⟨rfl, rfl, fun _ _ => rfl⟩
  trans _ first second :=
    ⟨second.page.trans first.page, second.firings.trans first.firings,
      fun h stays => (second.handlers h stays).trans (first.handlers h stays)⟩

theorem closed_apart_rebinds : Closed (Apart gone) Move.Rebinds := by
  intro m rebinds s _ _
  cases m with
  | rebind bindings => exact ⟨rfl, rfl, fun _ _ => rfl⟩
  | _ => exact rebinds.elim

/-- What a handler gives up when it is unbound was its own. -/
theorem closed_apart_unwires (mem : h ∈ gone) : Closed (Apart gone) (Move.Unwires h) := by
  intro m unwires s orderly allowed
  have frees {h' e : Nat} (frees : m.Frees h' e) : h' ∈ gone := by
    cases m with
    | quit => exact (frees.1.symm.trans unwires) ▸ mem
    | mute => exact frees.elim
    | _ => exact unwires.elim
  have listeners (l : Listener) (there : l ∈ s.page.listeners) (cancelled : l.id ∈ s.cancels m) :
      l.callback.handler ∈ gone := by
    rw [orderly.mutes_of_listener allowed there cancelled] at unwires
    exact unwires ▸ mem
  have observers (o : Observer) (there : o ∈ s.page.observers) (cancelled : o.id ∈ s.cancels m) :
      o.handler ∈ gone := frees (orderly.frees_of_observer allowed there cancelled)
  have timers (t : Timer) (there : t ∈ s.page.timers) (cancelled : t.id ∈ s.cancels m) :
      t.handler ∈ gone := frees (orderly.frees_of_timer allowed there cancelled)
  have page {id : Nat} (cancels : s.cancels m = [id]) :
      (s.page.cancel id).release gone = s.page.release gone := by
    rw [cancels] at listeners observers timers
    exact Page.release_cancel
      (fun l there own => listeners l there (List.mem_singleton.mpr own))
      (fun o there own => observers o there (List.mem_singleton.mpr own))
      (fun t there own => timers t there (List.mem_singleton.mpr own))
  cases m with
  | mute h' id => exact ⟨page rfl, rfl, fun _ _ => rfl⟩
  | quit h' e =>
    have own : h' = h := unwires
    subst own
    change Apart gone s (s.clear h' e)
    cases held : s.held? h' e with
    | none =>
      rw [clear_of_held?_eq_none held]
      exact (chained_apart gone).refl s
    | some id =>
      rw [clear_of_held?_eq_some held]
      refine ⟨page ?_, rfl, fun h'' stays => ?_⟩
      · rw [cancels, held]
        rfl
      · exact List.getElem?_modify_ne _ _ fun same => stays (same ▸ mem)
  | _ => exact unwires.elim

/-- A step that unbinds touches nothing of the handlers that stay. -/
theorem leads_apart_step (unbinds : step.Unbinds) :
    s.Leads (Apart (s.named step)) (s.step step).2 := by
  refine (chained_apart _).leads_step (fun p is => ?_) (fun route source is => ?_)
    (fun b place h is => ?_)
    (fun h mem => closed_apart_unwires (List.mem_filter.mp mem).1) closed_apart_rebinds
  all_goals
    subst is
    exact unbinds.elim

/-! ### Listeners -/

/-- Every listener is in the list of its handler. -/
def Listed (s : Scene) : Prop :=
  ∀ l ∈ s.page.listeners, ∃ handler, s.handlers[l.callback.handler]? = some handler ∧
    l.id ∈ handler.listeners

theorem listen_handlers (s : Scene) (h : Nat) (scope : Scope) (event : String) (c : Callback)
    {h' : Nat} {handler : Handler} (known : s.handlers[h']? = some handler) :
    (s.listen h scope event c).handlers[h']? = some (if h = h' then
      { handler with listeners := handler.listeners ++ [s.page.nextId] } else handler) := by
  simp only [listen, modifyHandler, record_handlers, List.getElem?_modify, known]
  rfl

/-- A handler keeps the numbers of its listeners. -/
theorem listenerId_move (s : Scene) (m : Move) {id : Nat} {handler : Handler}
    (known : s.handlers[h]? = some handler) (mem : id ∈ handler.listeners) :
    ∃ handler', (s.move m).handlers[h]? = some handler' ∧ id ∈ handler'.listeners := by
  by_cases listens : ∃ h' scope event c, m = .listen h' scope event c
  · obtain ⟨h', scope, event, c, rfl⟩ := listens
    refine ⟨_, s.listen_handlers h' scope event c known, ?_⟩
    split
    · exact List.mem_append_left _ mem
    · exact mem
  by_cases adds : ∃ new, m = .add new
  · obtain ⟨new, rfl⟩ := adds
    have lt := (List.getElem?_eq_some_iff.mp known).1
    exact ⟨handler, (List.getElem?_append_left lt).trans known, mem⟩
  · have same := s.move_listenerIds_of_ne m
      (fun h scope event c eq => listens ⟨h, scope, event, c, eq⟩) fun new eq => adds ⟨new, eq⟩
    have there : ((s.move m).handlers.map Handler.listeners)[h]? = some handler.listeners := by
      rw [same, List.getElem?_map, known]
      rfl
    rw [List.getElem?_map] at there
    obtain ⟨handler', known', eq⟩ := Option.map_eq_some_iff.mp there
    exact ⟨handler', known', eq.symm ▸ mem⟩

/-- The handler of a callback that listeners have is there. -/
theorem lt_of_fits {c : Callback} (listened : c.IsListened) (fits : s.Fits c) :
    c.handler < s.handlers.length := by
  cases c with
  | event h => exact fits
  | press h e | release h e => exact HasEntry.lt fits
  | elapse | see => exact listened.elim

theorem Listed.move (listed : s.Listed) (allowed : s.Allows m) : (s.move m).Listed := by
  intro l mem
  rcases listener_of_move mem with ⟨old, there, same⟩ | new
  · obtain ⟨handler, known, own⟩ := listed old there
    have ids : old.id = l.id := congrArg (·.id) same
    have callbacks : old.callback = l.callback := congrArg (·.callback) same
    exact callbacks ▸ ids ▸ s.listenerId_move m known own
  · cases m with
    | listen h scope event c =>
      obtain ⟨listened, own, fits⟩ := allowed
      have is := List.mem_singleton.mp new
      have ids : l.id = s.page.nextId := congrArg (·.id) is
      have callbacks : l.callback = c := congrArg (·.callback) is
      have known := List.getElem?_eq_getElem (own ▸ lt_of_fits listened fits)
      rw [callbacks, own, ids]
      exact ⟨_, s.listen_handlers h scope event c known, by simp⟩
    | _ => cases new

/-- No listener is missing in the list of its handler. -/
theorem listed_after (setup : Setup) (steps : List Step) : (setup.start.after steps).Listed :=
  after_of_move (fun _ _ _ allowed listed => listed.move allowed) setup
    (by simp [Listed, Setup.start]) steps

/-- None of the listeners of a handler is active. -/
def Muted (s : Scene) (h : Nat) : Prop :=
  ∀ l ∈ s.page.listeners, l.callback.handler = h → l.active = false

theorem Muted.of_without (muted : s.Muted h) {ids : List Nat}
    (is : t.page.listeners = s.page.listeners.map (Listener.without ids)) : t.Muted h := by
  intro l mem own
  rw [is] at mem
  obtain ⟨old, there, rfl⟩ := List.mem_map.mp mem
  simp [Listener.without, muted old there own]

theorem Muted.clears (muted : s.Muted h) (h' : Nat) (entries : List Nat) :
    (entries.foldl (fun s e => s.clear h' e) s).Muted h := by
  induction entries generalizing s with
  | nil => exact muted
  | cons e rest ih => exact ih (muted.of_without (s.clear_page_listeners h' e))

theorem foldl_cancel_page (s : Scene) (ids : List Nat) :
    (ids.foldl cancel s).page =
      { s.page with
        listeners := s.page.listeners.map (Listener.without ids)
        observers := s.page.observers.map (Observer.without ids)
        timers := s.page.timers.map (Timer.without ids) } := by
  induction ids generalizing s with
  | nil => simp [Listener.without_nil, Observer.without_nil, Timer.without_nil]
  | cons id rest ih =>
    rw [List.foldl_cons, ih]
    simp [cancel, Page.cancel, Listener.without, Observer.without, Timer.without, Bool.and_assoc]

/-- A handler that is unbound has no active listener. -/
theorem muted_unbindHandler (listed : s.Listed) (h : Nat) : (s.unbindHandler h).Muted h := by
  cases known : s.handlers[h]? with
  | none =>
    simp only [unbindHandler, known]
    intro l mem own
    obtain ⟨handler, there, -⟩ := listed l mem
    rw [own, known] at there
    cases there
  | some handler =>
    have cancelled : (handler.listeners.foldl cancel s).Muted h := by
      intro l mem own
      rw [foldl_cancel_page] at mem
      obtain ⟨old, there, rfl⟩ := List.mem_map.mp mem
      obtain ⟨handler', there', id⟩ := listed old there
      have own : old.callback.handler = h := own
      rw [own, known] at there'
      cases there'
      simp [Listener.without, id]
    simp only [unbindHandler, known]
    -- What the entries give up then makes no listener active.
    exact cancelled.clears h _

/-! ### Unbinding -/

/-- None of the listeners of a handler is active, and none of its entries holds a timer. -/
structure Unwired (s : Scene) (h : Nat) : Prop where
  muted : s.Muted h
  unheld : ∀ e, s.HasEntry .hold h e → s.held? h e = none

/-- Every listener stays in the list of its handler, and a handler that is unwired stays so. -/
def Unwinds (h : Nat) (s t : Scene) : Prop := (s.Listed → t.Listed) ∧ (s.Unwired h → t.Unwired h)

theorem chained_unwinds (h : Nat) : Chained (Unwinds h) :=
  ⟨fun _ => ⟨id, id⟩, fun _ first second => ⟨second.1 ∘ first.1, second.2 ∘ first.2⟩⟩

theorem closed_unwinds : Closed (Unwinds h) Move.GivesUp := by
  intro m gives s orderly allowed
  refine ⟨fun listed => listed.move allowed, fun unwired => ⟨?_, fun e has => ?_⟩⟩
  · have none : s.newListeners m = [] := by cases m <;> first | rfl | exact gives.elim
    have listeners := s.move_page_listeners m
    rw [none, List.append_nil] at listeners
    exact unwired.muted.of_without listeners
  · have adds : Closed Steady Move.GivesUp := closed_steady fun m gives => by
      cases m <;> first | rfl | exact gives.elim
    have before := unwired.unheld e ((adds m gives s orderly allowed).hasEntry has)
    cases held : (s.move m).held? h e with
    | none => rfl
    | some id =>
      rcases s.held?_of_move m allowed held with old | rfl | ⟨_, rfl, _⟩
      · rw [before] at old
        cases old
      · exact gives.elim
      · exact gives.elim

/-- A step leaves the handlers unwired that it unbinds. -/
theorem unwired_step (orderly : s.Orderly) (listed : s.Listed) (mem : h ∈ s.named step) :
    (s.step step).2.Unwired h := by
  refine step_brings (chained_unwinds h)
    (fun h' => closed_unwinds.mono fun m unwires => by cases m <;> trivial)
    (fun _ unwinds => unwinds.1) (fun _ unwinds => unwinds.2) (fun {s} _ listed => ?_)
    (closed_unwinds.mono fun m rebinds => by cases m <;> trivial) mem orderly listed
  refine ⟨muted_unbindHandler listed h, fun e has => ?_⟩
  have steady : s.Steady (s.unbindHandler h) := s.unbindHandler_unfired h
  obtain ⟨handler, known, -, lt⟩ := steady.hasEntry has
  simp only [unbindHandler, known]
  exact held?_clears _ h (List.mem_range.mpr lt)

/-- No registration of a handler that was just unbound is active: each was in the list of the
handler or held by one of its entries. -/
theorem released_step {setup : Setup} (quiet : setup.Quiet) (before : List Step)
    (mem : h ∈ (setup.start.after before).named step) :
    ((setup.start.after before).step step).2.Released h := by
  have orderly := orderly_after setup before
  have unwired := unwired_step orderly (listed_after setup before) mem
  have after : (setup.start.after (before ++ [step])) =
      ((setup.start.after before).step step).2 := after_append before [step]
  have orderly' := orderly_after setup (before ++ [step])
  rw [after] at orderly'
  have steady := leads_steady_step (s := setup.start.after before) step fun route source is => by
    subst is
    cases mem
  obtain ⟨-, -, steady⟩ := steady orderly
  refine ⟨unwired.muted, fun o there own => ?_, fun t there own => ?_⟩
  · have has := own ▸ orderly'.observers o there
    have unbound : h ∈ setup.start.unboundIn (before ++ [step]) := by
      rw [unboundIn_append]
      refine List.mem_append_right _ (List.mem_append_left _ (List.mem_filter.mpr ⟨mem, ?_⟩))
      exact decide_eq_true (steady.hasEntry has).lt
    obtain ⟨-, o', only, active⟩ :=
      (tended_after setup (before ++ [step])).revealsOnce h o.entry (after ▸ has)
    have same : o = o' :=
      List.mem_singleton.mp (only ▸ mem_observersOf.mpr ⟨after ▸ there, own, rfl⟩)
    exact same ▸ Bool.eq_false_iff.mpr fun is => (active.mp is).2 unbound
  · have has := own ▸ orderly'.timers t there
    -- An entry that holds no timer has none.
    obtain ⟨σ, state⟩ := settled_after quiet (before ++ [step]) (after ▸ has)
    rw [after] at state
    have idle : ((setup.start.after before).step step).2.pendingOf h t.entry = [] := by
      cases σ with
      | idle => exact state.1
      | pending due =>
        obtain ⟨_, _, _, holds⟩ := state
        rw [unwired.unheld t.entry has] at holds
        cases holds
    refine Bool.eq_false_iff.mpr fun is => ?_
    have pending := List.mem_filter.mpr ⟨mem_timersOf.mpr ⟨there, own, rfl⟩, is⟩
    rw [← pendingOf, idle] at pending
    cases pending

end Scene

end TriggerSheet
