import TriggerSheet.Proofs.Scene.Press

/-!
# Holding handlers follow the automaton

While effects take no page steps, every entry of a holding handler behaves as the press-and-hold
automaton of its target: it has exactly the timer that the automaton waits for, and fires when the
automaton does, in whatever order the events of all targets come. This lasts as long as the handler
is not unbound.

## Main definitions

* `Scene.Armed` — an entry listens for the presses of its target and for their ends
* `Scene.Follows` — an entry is where the automaton is
* `Scene.HoldsLike` — an entry follows the automaton from now on

## Main results

* `Scene.Follows.step` — a step moves an entry as it moves the automaton
* `Scene.holdsLike_bind` — every entry follows the automaton from its bind on
-/

namespace TriggerSheet.Scene

variable {s t : Scene} {h e : Nat} {target : Target} {threshold : Duration} {a : HoldRun}

/-! ### Callbacks of which one concerns an entry -/

/-- Of the callbacks that run one concerns an entry: nothing else changes anything about it. -/
theorem exists_own (depth : Nat) {callbacks : List Callback} {c : Callback}
    (only : callbacks.filter (·.concerns h e) = [c]) (orderly : s.Orderly)
    (quiet : s.setup.Quiet) (has : s.HasEntry .hold h e) (fits : ∀ c ∈ callbacks, s.Fits c) :
    ∃ t, t.Orderly ∧ s.Extends t ∧ SamePress h e s t ∧
      SamePress h e (run (reactWithin depth) t c) (runAll (reactWithin depth) s callbacks) := by
  obtain ⟨before, after, rfl, others, own, rest⟩ := List.filter_eq_cons_iff.mp only
  have others' : ∀ c ∈ after, c.concerns h e = false := by
    simpa using List.filter_eq_nil_iff.mp rest
  have first : s.Leads (Keeps h e) (runAll (reactWithin depth) s before) :=
    leads_keeps_runAll depth (by simpa using others) fun c mem =>
      fits c (List.mem_append_left _ mem)
  obtain ⟨orderly', later, keeps⟩ := first orderly
  have same := keeps quiet has
  refine ⟨runAll (reactWithin depth) s before, orderly', later, same, ?_⟩
  -- What runs then may rely on what the callback of the entry leaves behind.
  have ran := carried_true.run (carried_true.admits_reactWithin depth)
    (later.fits (fits c (by simp))) orderly'
  obtain ⟨orderly'', later', -⟩ := ran
  have last : (run (reactWithin depth) (runAll (reactWithin depth) s before) c).Leads (Keeps h e)
      (runAll (reactWithin depth) (run (reactWithin depth) (runAll (reactWithin depth) s before) c)
        after) :=
    leads_keeps_runAll depth others' fun c' mem =>
      later'.fits (later.fits (fits c' (by simp [mem])))
  obtain ⟨-, -, keeps'⟩ := last orderly''
  have all : runAll (reactWithin depth) s (before ++ c :: after) =
      runAll (reactWithin depth) (run (reactWithin depth) (runAll (reactWithin depth) s before) c)
        after := by
    simp [runAll]
  rw [all]
  exact keeps' ((later.trans later').quiet quiet) ((later.trans later').hasEntry has)

/-! ### Following the automaton -/

/-- An entry of a holding handler has the threshold of its handler. -/
def HasThreshold (s : Scene) (h e : Nat) (threshold : Duration) : Prop :=
  ∃ handler, s.handlers[h]? = some handler ∧ handler.activation = .hold ∧
    e < handler.entries.length ∧ handler.holdThreshold = threshold

theorem HasThreshold.hasEntry (has : s.HasThreshold h e threshold) : s.HasEntry .hold h e := by
  obtain ⟨handler, known, kind, lt, -⟩ := has
  exact ⟨handler, known, kind, lt⟩

theorem Extends.hasThreshold (later : s.Extends t) (has : s.HasThreshold h e threshold) :
    t.HasThreshold h e threshold := by
  obtain ⟨handler, known, kind, lt, delay⟩ := has
  obtain ⟨handler', known', unfired⟩ := later.handler known
  have lengths := Handler.length_of_unfired unfired
  have kinds := congrArg (·.activation) unfired
  have delays := congrArg (·.holdThreshold) unfired
  exact ⟨handler', known', kinds.trans kind, lengths ▸ lt, delays.trans delay⟩

/-- An entry of a holding handler listens for the presses of its target and for their ends. -/
structure Armed (s : Scene) (h e : Nat) (target : Target) (threshold : Duration) : Prop where
  handler : s.HasThreshold h e threshold
  listeners : ∃ pressed released left, s.listenersOf h e =
    [⟨pressed, .target target, EventName.pressStart, .press h e, true⟩,
      ⟨released, .target target, EventName.pressEnd, .release h e, true⟩,
      ⟨left, .target target, EventName.pressLeave, .release h e, true⟩]

theorem Armed.hasEntry (armed : s.Armed h e target threshold) : s.HasEntry .hold h e :=
  armed.handler.hasEntry

theorem Armed.later (armed : s.Armed h e target threshold) (later : s.Extends t)
    (same : t.listenersOf h e = s.listenersOf h e) : t.Armed h e target threshold :=
  ⟨later.hasThreshold armed.handler, same ▸ armed.listeners⟩

/-- What an event runs for an entry that listens for the presses of its target. -/
theorem Armed.filter_listening (armed : s.Armed h e target threshold) (orderly : s.Orderly)
    (scope : Scope) (event : String) :
    (s.page.listening scope event).filter (·.concerns h e) =
      if scope = .target target then
        if event = EventName.pressStart then [.press h e]
        else if event = EventName.pressEnd ∨ event = EventName.pressLeave then [.release h e]
        else []
      else [] := by
  obtain ⟨pressed, released, left, listeners⟩ := armed.listeners
  rw [Scene.filter_listening orderly, listeners]
  by_cases there : scope = .target target
  swap
  · simp [there, Ne.symm there]
  have names : EventName.pressEnd ≠ EventName.pressStart ∧
      EventName.pressLeave ≠ EventName.pressStart ∧
      EventName.pressLeave ≠ EventName.pressEnd := by decide
  by_cases press : event = EventName.pressStart
  · simp [there, press, names]
  by_cases ended : event = EventName.pressEnd
  · simp [there, ended, names, Ne.symm names.1]
  by_cases leave : event = EventName.pressLeave
  · simp [there, leave, names, Ne.symm names.2.1, Ne.symm names.2.2]
  · simp [there, press, ended, leave, Ne.symm press, Ne.symm ended, Ne.symm leave]

/-- An entry of a holding handler is where the automaton of its target is. -/
structure Follows (s : Scene) (h e : Nat) (target : Target) (threshold : Duration)
    (a : HoldRun) : Prop extends Armed s h e target threshold where
  clock : s.page.now = a.clock
  state : s.InState h e a.state
  fired : s.firings.count ⟨h, .held e⟩ = a.fired

/-- What listens, fires and passes is as before, but the press may be in another state. -/
theorem Follows.later {σ : HoldState} (follows : s.Follows h e target threshold a)
    (later : s.Extends t) (hearing : SameHearing h e s t) (state : t.InState h e σ) :
    t.Follows h e target threshold { a with state := σ } where
  toArmed := follows.toArmed.later later hearing.listeners
  clock := hearing.now.trans follows.clock
  state := state
  fired := hearing.fired.trans follows.fired

theorem Follows.same (follows : s.Follows h e target threshold a) (later : s.Extends t)
    (same : SamePress h e s t) : t.Follows h e target threshold a :=
  follows.later later same.toSameHearing (same.inState follows.state)

/-- An event moves an entry as it moves the automaton. -/
theorem Follows.emit (follows : s.Follows h e target threshold a) (orderly : s.Orderly)
    (quiet : s.setup.Quiet) (defers : s.setup.Defers threshold)
    (depth : Nat) (scope : Scope) (event : String) :
    (runAll (reactWithin depth) s (s.page.listening scope event)).Follows h e target threshold
      (if scope = .target target then a.hear threshold event else a) := by
  have has := follows.hasEntry
  have fits : ∀ c ∈ s.page.listening scope event, s.Fits c :=
    fun c mem => orderly.fits_listening mem
  have all := carried_true.runAll (carried_true.admits_reactWithin depth) _ fits orderly
  obtain ⟨-, later, -⟩ := all
  have only := follows.filter_listening orderly scope event
  -- No callback concerns the entry.
  have unheard (none : (s.page.listening scope event).filter (·.concerns h e) = []) :
      (runAll (reactWithin depth) s (s.page.listening scope event)).Follows
        h e target threshold a := by
    have others := List.filter_eq_nil_iff.mp none
    obtain ⟨-, -, keeps⟩ := leads_keeps_runAll (s := s) depth (by simpa using others) fits orderly
    exact follows.same later (keeps quiet has)
  by_cases there : scope = .target target
  swap
  · rw [if_neg there] at only ⊢
    exact unheard only
  rw [if_pos there] at only ⊢
  unfold HoldRun.hear
  split
  next press =>
    rw [if_pos press] at only
    obtain ⟨t, orderly', later', same, same'⟩ := exists_own depth only orderly quiet has fits
    obtain ⟨handler, known, -, -, rfl⟩ := (follows.same later' same).handler
    obtain ⟨state, hearing⟩ := inState_press (reactWithin depth) orderly' known
      (later'.hasEntry has) (later'.defers defers) (same.inState follows.state)
    rw [same.now, follows.clock] at state
    exact follows.later later (same.toSameHearing.trans (hearing.trans same'.toSameHearing))
      (same'.inState state)
  next press =>
    rw [if_neg press] at only
    split
    next ends =>
      rw [if_pos ends] at only
      obtain ⟨t, orderly', later', same, same'⟩ := exists_own depth only orderly quiet has fits
      obtain ⟨state, hearing⟩ := inState_release (reactWithin depth) orderly' (later'.hasEntry has)
        (same.inState follows.state)
      exact follows.later later (same.toSameHearing.trans (hearing.trans same'.toSameHearing))
        (same'.inState state)
    next other =>
      rw [if_neg other] at only
      exact unheard only

/-! ### Letting time pass -/

/-- The timers of an entry that are left when time has passed. -/
theorem pendingOf_advance (s : Scene) (time : Duration) (h e : Nat) :
    (s.move (.advance time)).pendingOf h e =
      (s.pendingOf h e).filter fun t => ¬t.due.nanos ≤ (s.page.now.add time).nanos := by
  let passed (t : Timer) : Timer := { t with active := t.active && !(s.page.advance time).isDue t }
  have timers : (s.move (.advance time)).page.timers = s.page.timers.map passed := rfl
  have active (t : Timer) : (passed t).active =
      (decide ¬t.due.nanos ≤ (s.page.now.add time).nanos && t.active) := by
    by_cases due : t.due.nanos ≤ (s.page.now.add time).nanos <;>
      cases is : t.active <;> simp [passed, is, due, Page.isDue, Page.advance]
  rw [pendingOf, timersOf, timers, pendingOf, timersOf, List.filter_map, List.filter_map,
    List.filter_filter, List.filter_filter, List.filter_filter]
  have same : (s.page.timers.filter fun t =>
      (passed t).active && decide ((passed t).handler = h ∧ (passed t).entry = e)) =
      s.page.timers.filter fun t =>
        decide (¬t.due.nanos ≤ (s.page.now.add time).nanos) && t.active &&
          decide (t.handler = h ∧ t.entry = e) :=
    List.filter_congr fun t _ => by rw [active]
  refine Eq.trans (congrArg _ same) ((List.map_congr_left fun t mem => ?_).trans (List.map_id _))
  -- A timer that stays active is as it was.
  have left : (passed t).active = true := by
    rw [active]
    exact (Bool.and_eq_true_iff.mp (List.mem_filter.mp mem).2).1
  have was : t.active = true := by
    rw [active] at left
    exact (Bool.and_eq_true_iff.mp left).2
  change { t with active := (passed t).active } = t
  rw [left, ← was]

/-- The timers of an entry are all due, or none of them is. -/
theorem InState.filter_pending {σ : HoldState} (is : s.InState h e σ) (now : Duration) :
    (s.pendingOf h e).filter (fun t => t.due.nanos ≤ now.nanos) =
      if σ.IsDue now then s.pendingOf h e else [] := by
  have dues := is.dues
  split
  next due =>
    -- There is one timer at most, so that it is due is true of all.
    refine List.filter_eq_self.mpr fun t mem => decide_eq_true ?_
    obtain ⟨d, mem', le⟩ := due
    have own : t.due ∈ σ.dues := dues ▸ List.mem_map_of_mem mem
    cases σ with
    | idle => cases mem'
    | pending due =>
      rw [List.mem_singleton.mp own]
      exact List.mem_singleton.mp mem' ▸ le
  next early =>
    refine List.filter_eq_nil_iff.mpr fun t mem due => early ?_
    exact ⟨t.due, dues ▸ List.mem_map_of_mem mem, of_decide_eq_true due⟩

section Advance

variable {σ : HoldState} (state : s.InState h e σ) (orderly : s.Orderly) (quiet : s.setup.Quiet)
  (has : s.HasEntry .hold h e) (depth : Nat) (time : Duration)

include state orderly quiet has

/-- When its press is due, an entry fires and has nothing pending any more. -/
theorem InState.advance_due (due : σ.IsDue (s.page.now.add time)) :
    let t := (perform (reactWithin depth) s (.advance time)).2
    t.InState h e .idle ∧ t.listenersOf h e = s.listenersOf h e ∧
      t.page.now = s.page.now.add time ∧
      t.firings.count ⟨h, .held e⟩ = s.firings.count ⟨h, .held e⟩ + 1 := by
  have later := s.extends_move (.advance time)
  have has' := later.hasEntry has
  have orderly' := orderly.move (m := .advance time) trivial
  have fits : ∀ c ∈ (s.page.advance time).due, (s.move (.advance time)).Fits c :=
    fun c mem => later.fits (orderly.fits_due mem)
  have apart := state.filter_pending (s.page.now.add time)
  rw [if_pos due] at apart
  have none : (s.move (.advance time)).pendingOf h e = [] := by
    rw [s.pendingOf_advance time h e]
    exact List.filter_eq_nil_iff.mpr fun t mem late =>
      of_decide_eq_true late (of_decide_eq_true (List.filter_eq_self.mp apart t mem))
  -- What is due is the one timer of the entry, so one callback concerns it.
  have only : (s.page.advance time).due.filter (·.concerns h e) = [.elapse h e] := by
    rw [s.filter_due time h e, apart]
    cases σ with
    | idle =>
      obtain ⟨d, mem, -⟩ := due
      cases mem
    | pending d =>
      obtain ⟨timer, own, -, -⟩ := state
      rw [own, List.map_singleton]
  obtain ⟨t, ordered, extended, same, same'⟩ :=
    exists_own depth only orderly' (later.quiet quiet) has' fits
  have pending : t.pendingOf h e = [] := by rw [pendingOf, same.timers]; exact none
  obtain ⟨idle, listeners, now, fired⟩ := inState_elapse depth ordered
    ((later.trans extended).quiet quiet) (extended.hasEntry has') pending
  exact ⟨same'.inState idle, same'.listeners.trans (listeners.trans same.listeners),
    same'.now.trans (now.trans same.now),
    same'.fired.trans (fired.trans (congrArg (· + 1) same.fired))⟩

/-- Before its press is due, time leaves an entry as it is. -/
theorem InState.advance_early (early : ¬σ.IsDue (s.page.now.add time)) :
    let t := (perform (reactWithin depth) s (.advance time)).2
    t.InState h e σ ∧ t.listenersOf h e = s.listenersOf h e ∧
      t.page.now = s.page.now.add time ∧
      t.firings.count ⟨h, .held e⟩ = s.firings.count ⟨h, .held e⟩ := by
  have later := s.extends_move (.advance time)
  have orderly' := orderly.move (m := .advance time) trivial
  have fits : ∀ c ∈ (s.page.advance time).due, (s.move (.advance time)).Fits c :=
    fun c mem => later.fits (orderly.fits_due mem)
  have apart := state.filter_pending (s.page.now.add time)
  rw [if_neg early] at apart
  have kept : (s.move (.advance time)).pendingOf h e = s.pendingOf h e := by
    rw [s.pendingOf_advance time h e]
    exact List.filter_eq_self.mpr fun t mem => decide_eq_true fun due =>
      List.filter_eq_nil_iff.mp apart t mem (decide_eq_true due)
  have others : (s.page.advance time).due.filter (·.concerns h e) = [] := by
    rw [s.filter_due time h e, apart, List.map_nil]
  obtain ⟨-, -, keeps⟩ := leads_keeps_runAll depth
    (by simpa using List.filter_eq_nil_iff.mp others) fits orderly'
  have same := keeps (later.quiet quiet) (later.hasEntry has)
  have state' : (s.move (.advance time)).InState h e σ := state.of_same kept rfl
  exact ⟨same.inState state', same.listeners, same.now, same.fired⟩

end Advance

/-- Time moves an entry as it moves the automaton. -/
theorem Follows.advance (follows : s.Follows h e target threshold a) (orderly : s.Orderly)
    (quiet : s.setup.Quiet) (depth : Nat) (time : Duration) :
    (perform (reactWithin depth) s (.advance time)).2.Follows h e target threshold
      (a.elapse time) := by
  have all := carried_true.perform (carried_true.admits_reactWithin depth) s (.advance time)
  obtain ⟨-, later, -⟩ := all orderly
  unfold HoldRun.elapse
  dsimp only
  rw [← follows.clock]
  split
  next due =>
    obtain ⟨state, listeners, now, fired⟩ :=
      follows.state.advance_due orderly quiet follows.hasEntry depth time due
    exact { follows.toArmed.later later listeners with
      clock := now
      state := state
      fired := fired.trans (congrArg (· + 1) follows.fired) }
  next early =>
    obtain ⟨state, listeners, now, fired⟩ :=
      follows.state.advance_early orderly quiet follows.hasEntry depth time early
    exact { follows.toArmed.later later listeners with
      clock := now
      state := state
      fired := fired.trans follows.fired }

/-! ### Steps -/

/-- A step moves an entry as it moves the automaton. -/
theorem Follows.step (follows : s.Follows h e target threshold a) (orderly : s.Orderly)
    (quiet : s.setup.Quiet) (defers : s.setup.Defers threshold)
    {step : Step} (stays : h ∉ s.unbinds step) :
    (s.step step).2.Follows h e target threshold (a.step target threshold step) := by
  by_cases emits : ∃ scope event, step = .page (.emit scope event)
  · obtain ⟨scope, event, rfl⟩ := emits
    exact follows.emit orderly quiet defers s.budget scope event
  by_cases advances : ∃ time, step = .page (.advance time)
  · obtain ⟨time, rfl⟩ := advances
    exact follows.advance orderly quiet s.budget time
  -- The automaton takes no notice of any other step.
  have still : a.step target threshold step = a := by
    unfold HoldRun.step
    split
    next scope event => exact absurd ⟨scope, event, rfl⟩ emits
    next time => exact absurd ⟨time, rfl⟩ advances
    next => rfl
  have leads := leads_keeps_step (e := e) follows.hasEntry.lt
    (fun scope event is => emits ⟨scope, event, is⟩) (fun time is => advances ⟨time, is⟩) stays
  obtain ⟨-, later, keeps⟩ := leads orderly
  rw [still]
  exact follows.same later (keeps quiet follows.hasEntry)

/-- An entry follows the automaton until its handler is unbound. -/
theorem Follows.after (follows : s.Follows h e target threshold a) (orderly : s.Orderly)
    (quiet : s.setup.Quiet) (defers : s.setup.Defers threshold)
    {steps : List Step} (stays : h ∉ s.unboundIn steps) :
    (s.after steps).Follows h e target threshold (a.run target threshold steps) := by
  induction steps generalizing s a with
  | nil => exact follows
  | cons step rest ih =>
    obtain ⟨stays, stays'⟩ := not_or.mp (mt List.mem_append.mpr stays)
    obtain ⟨orderly', later⟩ := orderly.step step
    have next := follows.step orderly quiet defers stays
    exact ih next orderly' (later.quiet quiet) (later.defers defers) stays'

/-! ### Binding -/

/-- An entry listens for its target, and was never pressed. -/
def Ready (s : Scene) (h e : Nat) (target : Target) (threshold : Duration) : Prop :=
  s.Follows h e target threshold ⟨s.page.now, .idle, 0⟩

theorem Ready.same (ready : s.Ready h e target threshold) (later : s.Extends t)
    (same : SamePress h e s t) : t.Ready h e target threshold := by
  unfold Ready at *
  rw [same.now]
  exact ready.same later same

/-- Nothing was registered for an entry, and it never fired. -/
structure Blank (s : Scene) (h e : Nat) : Prop where
  unheard : s.listenersOf h e = []
  unheld : s.held? h e = none
  unset : s.timersOf h e = []
  unfired : s.firings.count ⟨h, .held e⟩ = 0

theorem Blank.same (blank : s.Blank h e) (same : SamePress h e s t) : t.Blank h e :=
  ⟨same.listeners.trans blank.unheard, same.held.trans blank.unheld, same.timers.trans blank.unset,
    same.fired.trans blank.unfired⟩

/-- The entry of a handler that is just added is blank. -/
theorem Orderly.blank_of_add (orderly : s.Orderly) {handler : Handler}
    (new : handler.unfired = handler) (e : Nat) :
    (s.move (.add handler)).Blank s.handlers.length e where
  unheard := by
    refine List.filter_eq_nil_iff.mpr fun l mem own => ?_
    have fits := (orderly.listeners l mem).2
    rcases of_decide_eq_true own with is | is
    · rw [is] at fits
      exact Nat.lt_irrefl _ (HasEntry.lt fits)
    · rw [is] at fits
      exact Nat.lt_irrefl _ (HasEntry.lt fits)
  unheld := s.move_held?_of_le (.add handler) new (Nat.le_refl _) e
  unset := by
    refine List.filter_eq_nil_iff.mpr fun t mem own => ?_
    have bound := (orderly.timers t mem).lt
    rw [(of_decide_eq_true own).1] at bound
    exact Nat.lt_irrefl _ bound
  unfired := List.count_eq_zero.mpr fun mem => Nat.lt_irrefl _ (orderly.firings _ mem)

/-- The entries of other targets leave an entry as it is when they are wired. -/
theorem leads_wireOthers (wired : List (Target × Nat)) (others : ∀ w ∈ wired, w.2 ≠ e)
    (has : ∀ w ∈ wired, s.HasEntry .hold h w.2) :
    s.Leads (Keeps h e) (wired.foldl (fun s (target, e) => wireHold h s target e) s) := by
  refine (chained_keeps h e).leads_foldl (fun t => ∀ w ∈ wired, t.HasEntry .hold h w.2)
    (fun _ _ has later w mem => later.hasEntry (has w mem)) wired ?_ s has
  intro (target, e') mem t has
  have other : e' ≠ e := others _ mem
  have hears : Closed (Keeps h e) (Move.Hears h e') := closed_keeps fun m hears s _ handles => by
    cases m with
    | listen h' scope event c =>
      obtain ⟨-, rfl | rfl⟩ := hears
      · rcases handles with is | is
        · exact other (Callback.press.inj is).2
        · cases is
      · rcases handles with is | is
        · cases is
        · exact other (Callback.release.inj is).2
    | _ => exact hears.elim
  exact leads_wireHold (chained_keeps h e) hears target (has _ mem)

theorem listenersOf_listen (s : Scene) (scope : Scope) (event : String) {c : Callback}
    (own : c = .press h e ∨ c = .release h e) :
    (s.listen h scope event c).listenersOf h e =
      s.listenersOf h e ++ [⟨s.page.nextId, scope, event, c, true⟩] := by
  simp [listenersOf, listen, Page.listen, modifyHandler, own]

theorem held?_listen (s : Scene) (scope : Scope) (event : String) (c : Callback) (h' e' : Nat) :
    (s.listen h scope event c).held? h' e' = s.held? h' e' := by
  unfold held? listen
  rw [entryAt?_modifyHandler]
  · rfl
  · exact fun _ => rfl

/-- A blank entry that is wired listens for its target. -/
theorem ready_wireHold (orderly : s.Orderly) (has : s.HasThreshold h e threshold)
    (blank : s.Blank h e) (target : Target) :
    (wireHold h s target e).Ready h e target threshold := by
  obtain ⟨-, later, -⟩ :=
    leads_wireHold carried_true.toChained (fun _ _ _ _ _ => trivial) target has.hasEntry orderly
  refine ⟨⟨later.hasThreshold has, ?_⟩, rfl, ⟨?_, ?_⟩, blank.unfired⟩
  · refine ⟨s.page.nextId, s.page.nextId + 1, s.page.nextId + 2, ?_⟩
    rw [wireHold, listenersOf_listen _ _ _ (.inr rfl), listenersOf_listen _ _ _ (.inr rfl),
      listenersOf_listen _ _ _ (.inl rfl), blank.unheard]
    rfl
  · have timers : (wireHold h s target e).timersOf h e = s.timersOf h e := rfl
    rw [pendingOf, timers, blank.unset, List.filter_nil]
  · rw [wireHold, held?_listen, held?_listen, held?_listen, blank.unheld]

/-- The blank entry of a target listens for it when all targets are wired. -/
theorem ready_wireHolds (orderly : s.Orderly) (quiet : s.setup.Quiet)
    (has : s.HasThreshold h e threshold) (blank : s.Blank h e) {targets : List Target}
    (found : targets[e]? = some target) (entries : ∀ e < targets.length, s.HasEntry .hold h e) :
    (targets.zipIdx.foldl (fun s (target, e) => wireHold h s target e) s).Ready h e target
      threshold := by
  obtain ⟨after, all, others⟩ := zipIdx_eq_append found
  rw [all, List.foldl_append, List.foldl_cons]
  -- First come the entries before this one,
  have first := leads_wireOthers (h := h) (e := e) (targets.take e).zipIdx
    (fun w mem => (others w (List.mem_append_left _ mem)).1)
    fun w mem => entries w.2 (others w (List.mem_append_left _ mem)).2
  obtain ⟨orderly₁, later₁, keeps₁⟩ := first orderly
  have blank' := blank.same (keeps₁ quiet has.hasEntry)
  -- then the entry itself,
  have ready := ready_wireHold orderly₁ (later₁.hasThreshold has) blank' target
  have wires := leads_wireHold carried_true.toChained (fun _ _ _ _ _ => trivial) target
    (later₁.hasEntry has.hasEntry)
  obtain ⟨orderly₂, later₂, -⟩ := wires orderly₁
  have later := later₁.trans later₂
  -- and then those behind it.
  have last := leads_wireOthers (h := h) (e := e) after
    (fun w mem => (others w (List.mem_append_right _ mem)).1)
    fun w mem => later.hasEntry (entries w.2 (others w (List.mem_append_right _ mem)).2)
  obtain ⟨-, later₃, keeps₃⟩ := last orderly₂
  exact ready.same later₃ (keeps₃ (later.quiet quiet) (later.hasEntry has.hasEntry))

/-- A holding handler that is added listens for each of its targets. -/
theorem ready_addHandler (orderly : s.Orderly) (quiet : s.setup.Quiet) (depth : Nat)
    (options : Options) (sink : Sink) (selector : String) (clause : Clause) {targets : List Target}
    (found : targets[e]? = some target) :
    (addHandler (reactWithin depth) options sink s selector clause .hold targets).2.Ready
      s.handlers.length e target options.holdThreshold := by
  obtain ⟨lt, -⟩ := List.getElem?_eq_some_iff.mp found
  have new := newHandler_unfired options sink selector clause .hold targets
  have known := s.getElem?_add (newHandler options sink selector clause .hold targets)
  have has : (s.move (.add (newHandler options sink selector clause .hold targets))).HasThreshold
      s.handlers.length e options.holdThreshold :=
    ⟨_, known, rfl, by simpa [newHandler] using lt, rfl⟩
  have orderly' := orderly.move
    (m := .add (newHandler options sink selector clause .hold targets)) new
  have entries : ∀ e < targets.length, HasEntry _ .hold s.handlers.length e := fun _ lt =>
    hasEntry_add options sink selector clause .hold targets s (.inl rfl) lt
  have wired := ready_wireHolds orderly' quiet has (orderly.blank_of_add new e) found entries
  rw [addHandler_eq]
  exact wired.same (extends_move _ (.record none _)) ⟨⟨rfl, rfl, rfl⟩, rfl, rfl⟩

/-! ### Clauses -/

/-- Selectors match what they matched before. -/
def SameMatches (s t : Scene) : Prop := s.setup.Quiet → t.page.matched = s.page.matched

theorem chained_sameMatches : Chained SameMatches where
  refl _ := fun _ => rfl
  trans later first second := fun quiet => (second (later.quiet quiet)).trans (first quiet)

theorem move_matched (s : Scene) {m : Move} (still : ¬m.Turns) :
    (s.move m).page.matched = s.page.matched := by
  have cleared (h e : Nat) : (s.clear h e).page.matched = s.page.matched := by
    rw [clear_page]
    split <;> rfl
  cases m with
  | turn matched loaded contentReady => exact absurd trivial still
  | clear h e | quit h e => exact cleared h e
  | fire h cause =>
    rw [move_fire_page]
    cases cause with
    | revealed e => exact cleared h e
    | event | held e | alreadyPast | manual => rfl
  | _ => rfl

theorem closed_sameMatches {kind : Move → Prop} (still : ∀ m, kind m → ¬m.Turns) :
    Closed SameMatches kind :=
  fun m is s _ _ _ => s.move_matched (still m is)

theorem leads_sameMatches_bindClause (depth : Nat) (options : Options) (sink : Sink)
    (selector : String) (clause : Clause) :
    s.Leads SameMatches (bindClause (reactWithin depth) options sink s selector clause).2 := by
  refine leads_bindClause chained_sameMatches (n := 0)
    (fun h _ => closed_sameMatches fun m binds turns => ?_) (fun h cause _ => ?_) options sink
    selector clause (Nat.zero_le _)
  · rcases binds with wires | ⟨handler, rfl⟩
    · cases m <;> first | exact turns.elim | exact wires.elim
    · exact turns
  · refine fires_of_closed chained_sameMatches
      (admits_of_quiet (Q := fun s t => t.page.matched = s.page.matched) (fun _ => rfl) depth)
      (closed_sameMatches fun m continues turns => ?_) (closed_sameMatches fun m begins turns => ?_)
    · cases m <;> first | exact turns.elim | exact continues.elim
    · cases begins
      exact turns

/-- A handler that is added is that of its clause. -/
theorem exists_addHandler (orderly : s.Orderly) (depth : Nat) (options : Options) (sink : Sink)
    (selector : String) (clause : Clause) (activation : Activation) (targets : List Target) :
    ∃ handler, (addHandler (reactWithin depth) options sink s selector clause activation
      targets).2.handlers[s.handlers.length]? = some handler ∧
        handler.unfired = newHandler options sink selector clause activation targets := by
  rw [addHandler_eq]
  have new := newHandler_unfired options sink selector clause activation targets
  have known := s.getElem?_add (newHandler options sink selector clause activation targets)
  have orderly' := orderly.move
    (m := .add (newHandler options sink selector clause activation targets)) new
  have wired := leads_wire carried_true.toChained (fun _ _ _ _ _ => trivial)
    (carried_true.fires_reactWithin depth s.handlers.length) options.revealThreshold selector
    activation targets (List.getElem?_eq_some_iff.mp known).1
    (fun kind e lt => hasEntry_add options sink selector clause activation targets s kind lt)
  obtain ⟨-, later, -⟩ := wired orderly'
  obtain ⟨handler, known', unfired⟩ := later.handler known
  exact ⟨handler, known', unfired.trans new⟩

/-- A handler has an entry for each element that its clause found on a page, and an entry of it
listens for the element at its place. -/
def ReadyOn (p : Page) (s : Scene) (h e : Nat) (threshold : Duration) : Prop :=
  ∃ handler target, s.handlers[h]? = some handler ∧
    handler.entries.length = (p.matching handler.selector).length ∧
    (p.matching handler.selector)[e]? = some target ∧ s.Ready h e target threshold

theorem ReadyOn.same {p : Page} (ready : s.ReadyOn p h e threshold) (later : s.Extends t)
    (same : SamePress h e s t) : t.ReadyOn p h e threshold := by
  obtain ⟨handler, target, known, all, found, ready⟩ := ready
  obtain ⟨handler', known', unfired⟩ := later.handler known
  have selectors : handler'.selector = handler.selector := congrArg (·.selector) unfired
  have lengths := Handler.length_of_unfired unfired
  refine ⟨handler', target, known', ?_, ?_, ready.same later same⟩
  · rw [lengths, selectors, all]
  · rw [selectors, found]

/-- The new handler of a clause listens for each element that the clause found. -/
theorem readyOn_bindClause (orderly : s.Orderly) (quiet : s.setup.Quiet) (depth : Nat)
    (options : Options) (sink : Sink) (selector : String) (clause : Clause)
    (new : s.handlers.length ≤ h)
    (has : (bindClause (reactWithin depth) options sink s selector clause).2.HasEntry .hold h e) :
    (bindClause (reactWithin depth) options sink s selector clause).2.ReadyOn s.page h e
      options.holdThreshold := by
  obtain ⟨rfl, -, lt, eq⟩ :=
    bindClause_eq_of_hasEntry orderly options sink selector clause new (.inl rfl) has
  rw [eq]
  have queried : (s.record none (.query selector (s.page.matching selector))).Orderly :=
    orderly.move (m := .record none (.query selector (s.page.matching selector)))
      (allows_note s trivial id)
  have ready := ready_addHandler queried quiet depth options sink selector clause
    (List.getElem?_eq_getElem lt)
  obtain ⟨handler, known, unfired⟩ := exists_addHandler queried depth options sink selector clause
    .hold (s.page.matching selector)
  have selectors : handler.selector = selector := congrArg (·.selector) unfired
  have lengths : handler.entries.length = (s.page.matching selector).length := by
    have own := Handler.length_of_unfired (unfired.trans (newHandler_unfired ..).symm)
    simpa [newHandler] using own
  refine ⟨handler, _, known, ?_, ?_, ready⟩
  · rw [lengths, selectors]
  · rw [selectors, List.getElem?_eq_getElem lt]

/-- Binding clauses leaves the entries of the handlers that are there as they are. -/
theorem leads_keeps_bindClauses (depth : Nat) (options : Options) (sink : Sink)
    (clauses : List (String × Clause)) (bound : h < s.handlers.length) :
    s.Leads (Keeps h e) (bindClauses (reactWithin depth) options sink s clauses).2 := by
  refine leads_bindClauses (chained_keeps h e) (fun h' later => closed_keeps_binds later bound)
    (fun h' cause later => fires_keeps depth fun same => ?_) options sink clauses (Nat.le_refl _)
  omega

/-- The new handlers of all clauses listen for each element that their clauses found. -/
theorem readyOn_bindClauses (orderly : s.Orderly) (quiet : s.setup.Quiet) (depth : Nat)
    (options : Options) (sink : Sink) (clauses : List (String × Clause))
    (new : s.handlers.length ≤ h)
    (has : (bindClauses (reactWithin depth) options sink s clauses).2.HasEntry .hold h e) :
    (bindClauses (reactWithin depth) options sink s clauses).2.ReadyOn s.page h e
      options.holdThreshold := by
  induction clauses generalizing s with
  | nil => exact absurd has.lt (Nat.not_lt.mpr new)
  | cons first rest ih =>
    obtain ⟨selector, clause⟩ := first
    rw [bindClauses_cons] at has ⊢
    obtain ⟨orderly', later⟩ := orderly.bindClause depth options sink selector clause
    by_cases bound :
        h < (bindClause (reactWithin depth) options sink s selector clause).2.handlers.length
    · -- The handler is that of the first clause, and the others leave it alone.
      obtain ⟨-, later', keeps⟩ :=
        leads_keeps_bindClauses (e := e) depth options sink rest bound orderly'
      have has' := later'.hasEntry_of_lt bound has
      have ready := readyOn_bindClause orderly quiet depth options sink selector clause new has'
      exact ready.same later' (keeps (later.quiet quiet) has')
    · -- The handler is that of a later clause, which finds what the page still matches.
      obtain ⟨-, -, matches'⟩ :=
        leads_sameMatches_bindClause depth options sink selector clause orderly
      have ready := ih orderly' (later.quiet quiet) (Nat.le_of_not_lt bound) has
      obtain ⟨handler, target, known, all, found, ready⟩ := ready
      refine ⟨handler, target, known, ?_, ?_, ready⟩
      · rw [Page.matching, ← matches' quiet]
        exact all
      · rw [Page.matching, ← matches' quiet]
        exact found

/-- Reading a source only leaves notes. -/
theorem read_eq (s : Scene) (source : Source) : ∃ journal, s.read source = { s with journal } := by
  unfold read
  induction source.notes generalizing s with
  | nil => exact ⟨s.journal, rfl⟩
  | cons note rest ih => exact ih (s.log none note)

/-- The new handlers of a bind listen for each element that their clauses found. -/
theorem readyOn_bind (orderly : s.Orderly) (quiet : s.setup.Quiet) (route : Route) (source : Source)
    (new : s.handlers.length ≤ h) (has : (s.bind route source).2.HasEntry .hold h e) :
    (s.bind route source).2.ReadyOn s.page h e (s.route route).1.holdThreshold := by
  obtain ⟨handlers, bindings, eq⟩ := s.bind_eq route source
  obtain ⟨journal, read⟩ := s.read_eq source
  rw [eq] at has ⊢
  have reads := leads_read carried_true.toChained (s := s) (h := h)
    (fun _ _ _ _ _ => trivial) source
  obtain ⟨orderly', later, -⟩ := reads orderly
  have pages : (s.read source).page = s.page := by rw [read]
  have numbers : (s.read source).handlers.length ≤ h := by rw [read]; exact new
  have has' : (s.bound route source).HasEntry .hold h e := has
  have ready : (s.bound route source).ReadyOn (s.read source).page h e
      (s.route route).1.holdThreshold :=
    readyOn_bindClauses orderly' (later.quiet quiet) (s.read source).budget _ (s.route route).2 _
      numbers has'
  rw [pages] at ready
  -- What is noted and handed out at the end concerns no entry.
  have noted := extends_move (s.bound route source) (.record none (.logged (.bound handlers)))
  have later' := noted.trans (extends_move _ (.rebind bindings))
  exact ready.same later' ⟨⟨rfl, rfl, rfl⟩, rfl, rfl⟩

/-! ### Whole plays -/

/-- No scene is later than the end of time. -/
theorem now_after (setup : Setup) (steps : List Step) :
    (setup.start.after steps).page.now.nanos ≤ Duration.limit := by
  refine after_of_move (P := fun s => s.page.now.nanos ≤ Duration.limit)
    (fun s m _ _ bounded => ?_) setup (Nat.zero_le _) steps
  by_cases advances : m.Advances
  · cases m with
    | advance time => exact Nat.min_le_left _ _
    | _ => exact advances.elim
  · rw [s.move_now m advances]
    exact bounded

/-- From a scene on, an entry behaves as the press-and-hold automaton of its target, until its
handler is unbound. -/
structure HoldsLike (s : Scene) (h e : Nat) (target : Target) (threshold : Duration) : Prop where
  /-- Its timers and its firings are those of the automaton. -/
  follows : ∀ steps, h ∉ s.unboundIn steps →
    let a := HoldRun.run target threshold ⟨s.page.now, .idle, 0⟩ steps
    (s.after steps).page.now = a.clock ∧
      ((s.after steps).pendingOf h e).map (·.due) = a.state.dues ∧
      (s.after steps).firings.count ⟨h, .held e⟩ = a.fired
  /-- A press that ends before the threshold never fires. -/
  ends : ∀ before meanwhile ending rest,
    h ∉ s.unboundIn (before ++ (.press target :: meanwhile ++ ending :: rest)) →
    ending.Ends target → .press target ∉ rest →
    (s.after (before ++ .press target :: meanwhile)).page.now.nanos <
      ((s.after before).page.now.add threshold).nanos →
    (s.after (before ++ (.press target :: meanwhile ++ ending :: rest))).firings.count
        ⟨h, .held e⟩ =
      (s.after before).firings.count ⟨h, .held e⟩
  /-- A press that is followed by another before the threshold fires at most once with it, and not
  before the threshold of the other. -/
  restarts : ∀ before meanwhile rest,
    h ∉ s.unboundIn (before ++ (.press target :: meanwhile ++ .press target :: rest)) →
    .press target ∉ rest →
    (s.after (before ++ .press target :: meanwhile)).page.now.nanos <
      ((s.after before).page.now.add threshold).nanos →
    let fired (steps : List Step) := (s.after steps).firings.count ⟨h, .held e⟩
    let all := before ++ (.press target :: meanwhile ++ .press target :: rest)
    fired all ≤ fired before + 1 ∧
      ((s.after all).page.now.nanos <
        ((s.after (before ++ .press target :: meanwhile)).page.now.add threshold).nanos →
        fired all = fired before)

/-- An entry that listens for its target behaves as the automaton. -/
theorem Ready.holdsLike (ready : s.Ready h e target threshold) (orderly : s.Orderly)
    (quiet : s.setup.Quiet) (defers : s.setup.Defers threshold)
    (bounded : s.page.now.nanos ≤ Duration.limit) : s.HoldsLike h e target threshold := by
  have follows (steps : List Step) (stays : h ∉ s.unboundIn steps) :=
    Follows.after ready orderly quiet defers stays
  have prefixes (steps rest : List Step) (stays : h ∉ s.unboundIn (steps ++ rest)) :
      h ∉ s.unboundIn steps := by
    rw [unboundIn_append] at stays
    exact fun mem => stays (List.mem_append_left _ mem)
  have clocks (steps : List Step) :=
    (HoldRun.clock_run (a := ⟨s.page.now, .idle, 0⟩) target threshold bounded steps).2
  refine ⟨fun steps stays => ?_, fun before meanwhile ending rest stays ends none early => ?_,
    fun before meanwhile rest stays none early => ?_⟩
  · have at_end := follows steps stays
    exact ⟨at_end.clock, at_end.state.dues, at_end.fired⟩
  · have first := follows before (prefixes _ _ stays)
    have second := follows (before ++ .press target :: meanwhile)
      (prefixes _ (ending :: rest) (by simpa using stays))
    rw [(follows _ stays).fired, first.fired, HoldRun.run_append]
    rw [first.clock, second.clock, HoldRun.run_append] at early
    exact HoldRun.fired_of_ends (clocks before) ends none early
  · have first := follows before (prefixes _ _ stays)
    have second := follows (before ++ .press target :: meanwhile)
      (prefixes _ (.press target :: rest) (by simpa using stays))
    have last := follows _ stays
    dsimp only
    rw [last.fired, last.clock, first.fired, second.clock, HoldRun.run_append, HoldRun.run_append,
      HoldRun.run_append]
    rw [first.clock, second.clock, HoldRun.run_append] at early
    -- The first press has not fired when the second comes.
    have unfired := HoldRun.fired_of_press (clocks before) early
    have clock := HoldRun.clock_run target threshold (clocks before) (.press target :: meanwhile)
    refine ⟨?_, fun early' => ?_⟩
    · rw [← unfired, HoldRun.run_cons, HoldRun.step_press]
      exact HoldRun.run_once rest none
    · exact (HoldRun.fired_of_press clock.2 early').trans unfired

/-- A new holding handler has an entry for each element that its clause found, and from the bind on
every entry behaves as the automaton of the element at its place. -/
theorem holdsLike_bind {setup : Setup} (quiet : setup.Quiet) (before : List Step) (route : Route)
    (source : Source) {h e : Nat} (new : (setup.start.after before).handlers.length ≤ h)
    (has : ((setup.start.after before).step (.bind route source)).2.HasEntry .hold h e)
    (defers : setup.Defers ((setup.start.after before).route route).1.holdThreshold) :
    let s := setup.start.after before
    let t := (s.step (.bind route source)).2
    ∃ handler target, t.handlers[h]? = some handler ∧
      handler.entries.length = (s.page.matching handler.selector).length ∧
      (s.page.matching handler.selector)[e]? = some target ∧
      t.HoldsLike h e target (s.route route).1.holdThreshold := by
  obtain ⟨orderly, later⟩ := (orderly_start setup).after before
  obtain ⟨orderly', later'⟩ := orderly.step (.bind route source)
  have started := later.quiet quiet
  obtain ⟨handler, target, known, all, found, ready⟩ :=
    readyOn_bind orderly started route source new has
  have bounded := now_after setup (before ++ [.bind route source])
  rw [after_append] at bounded
  exact ⟨handler, target, known, all, found, ready.holdsLike orderly' (later'.quiet started)
    (later'.defers (later.defers defers)) bounded⟩

/-- The second of two buttons behaves as the automaton. -/
theorem holdsLike_bind_buttons :
    let setup := Setup.plain [("button", [1, 2])] [("fall", .script [])] 0
    let sheet := Source.blocks [⟨"button", [⟨"onhold.click", [⟨"text", "fall"⟩]⟩]⟩]
    let t := (setup.start.step (.bind .engine sheet)).2
    t.HasEntry .hold 0 1 ∧ t.HoldsLike 0 1 2 (.ofMillis 500) := by
  intro setup sheet t
  have quiet : setup.Quiet := Setup.quiet_of_entries (List.forall_mem_singleton.mpr rfl)
  have has : t.HasEntry .hold 0 1 := by decide +kernel
  obtain ⟨handler, target, known, -, found, holds⟩ :=
    holdsLike_bind quiet [] .engine sheet (h := 0) (e := 1) (Nat.zero_le 0) has (by decide)
  obtain rfl : _ = handler := Option.some.inj known
  obtain rfl : 2 = target := Option.some.inj found
  exact ⟨has, holds⟩

end TriggerSheet.Scene
