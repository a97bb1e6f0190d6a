import Mathlib.Data.List.TakeWhile
import TriggerSheet.Proofs.Scene.Press

/-!
# Held and forgotten timers

An entry of a holding handler holds the timer of its press, so that a release or an unbind reaches
it. When a timer elapses, its entry forgets what it holds by then. That is the timer itself unless
the element was pressed again in between: timers of several entries can fall due together, and an
effect of the first can press the element of the second before the second is told. The new timer
then stays active, and nothing reaches it any more.

## Main definitions

* `Scene.since` — what happened since a timer was scheduled
* `Scene.Forgot` — the entry of a timer has forgotten it
* `Scene.Tracked` — an active timer is held by its entry, or was forgotten
* `Scene.Stale` — an entry holds a timer that is not active

## Main results

* `Scene.tracked_move` — every move keeps track of the timers
* `Scene.not_stale_after` — between steps no entry holds a timer that is not active
* `Scene.holdsTimers_after` — what a handler holds are its active timers that were not forgotten
-/

namespace TriggerSheet

/-- The event that schedules the timer with a number. -/
def Event.schedules (id : Nat) : Event → Bool
  | schedule i _ => i = id
  | _ => false

namespace Scene

variable {s t : Scene} {h e : Nat} {m : Move}

/-- What has happened since a timer was scheduled. -/
def since (s : Scene) (id : Nat) : List Event := s.events.dropWhile fun event => !event.schedules id

/-- The entry of a timer has forgotten what it holds since the timer was scheduled. -/
def Forgot (s : Scene) (timer : Timer) : Prop :=
  .called (.elapse timer.handler timer.entry) ∈ s.since timer.id

instance (s : Scene) (timer : Timer) : Decidable (s.Forgot timer) :=
  inferInstanceAs (Decidable (_ ∈ _))

/-- Of the timers every active one is held by its entry, unless the entry has forgotten it. -/
structure Tracked (s : Scene) : Prop where
  scheduled : ∀ timer ∈ s.page.timers, ∃ delay, .schedule timer.id delay ∈ s.events
  made : ∀ id delay, .schedule id delay ∈ s.events → ∃ timer ∈ s.page.timers, timer.id = id
  fresh : ∀ timer ∈ s.page.timers, s.held? timer.handler timer.entry = some timer.id →
    ¬s.Forgot timer
  owned : ∀ timer ∈ s.page.timers, timer.active = true →
    s.held? timer.handler timer.entry = some timer.id ∨ s.Forgot timer

theorem tracked_start (setup : Setup) : setup.start.Tracked := by
  constructor <;> simp [Setup.start, events]

/-! ### What a move does to the timers -/

/-- What has happened since a timer was scheduled grows with what happens. -/
theorem since_append {id : Nat} {delay : Duration} (mem : .schedule id delay ∈ s.events)
    {more : List Event} (grows : t.events = s.events ++ more) :
    t.since id = s.since id ++ more := by
  have some : ¬s.since id = [] := by
    intro none
    have all := List.dropWhile_eq_nil_iff.mp none _ mem
    simp [Event.schedules] at all
  rw [since, grows, List.dropWhile_append, if_neg (by simpa [since] using some)]
  rfl

/-- A timer is forgotten in a move when a timer of its entry elapses. -/
theorem forgot_move {timer : Timer} {delay : Duration} (mem : .schedule timer.id delay ∈ s.events)
    (allowed : s.Allows m) :
    (s.move m).Forgot timer ↔ s.Forgot timer ∨ m = .fire timer.handler (.held timer.entry) := by
  obtain ⟨asked, remarks, grows⟩ := s.move_events m
  rw [List.append_assoc] at grows
  have none : Event.called (.elapse timer.handler timer.entry) ∉ asked := fun mem => remarks _ mem
  rw [Forgot, since_append mem grows, List.mem_append, List.mem_append, or_iff_left none]
  refine or_congr Iff.rfl ⟨fun new => ?_, fun is => is ▸ List.mem_singleton_self _⟩
  cases m with
  | record firing event =>
    rw [newEvents, List.mem_singleton] at new
    exact (new ▸ allowed.1 : Event.IsRemark (.called (.elapse timer.handler timer.entry))).elim
  | fire h cause =>
    cases cause with
    | held e => simpa [newEvents, eq_comm] using new
    | event | revealed | alreadyPast | manual => simp [newEvents] at new
  | _ => simp [newEvents] at new

/-- A timer after a move was there before and is no more active than it was, or is new. -/
theorem old_or_new {timer : Timer} (mem : timer ∈ (s.move m).page.timers) :
    (∃ old ∈ s.page.timers, ∃ active, timer = { old with active } ∧
      (active = true → old.active = true ∧ old.id ∉ s.cancels m)) ∨
      timer ∈ s.newTimers m := by
  by_cases advances : m.Advances
  · cases m with
    | advance time =>
      obtain ⟨old, there, rfl⟩ := List.mem_map.mp mem
      exact .inl ⟨old, there, _, rfl, fun active =>
        ⟨(Bool.and_eq_true_iff.mp active).1, List.not_mem_nil⟩⟩
    | _ => exact advances.elim
  · rw [s.move_page_timers m advances] at mem
    refine (List.mem_append.mp mem).imp_left fun old => ?_
    obtain ⟨was, there, rfl⟩ := List.mem_map.mp old
    exact ⟨was, there, _, rfl, fun active => by simpa using active⟩

/-- What is scheduled is a timer that is new. -/
theorem schedule_of_move {id : Nat} {delay : Duration} (allowed : s.Allows m)
    (mem : .schedule id delay ∈ (s.move m).events) :
    .schedule id delay ∈ s.events ∨ ∃ timer ∈ s.newTimers m, timer.id = id := by
  obtain ⟨asked, remarks, grows⟩ := s.move_events m
  rw [grows, List.append_assoc] at mem
  rcases List.mem_append.mp mem with old | new
  · exact .inl old
  rcases List.mem_append.mp new with new | remark
  swap
  · exact (remarks _ remark).elim
  cases m with
  | record firing event =>
    rw [newEvents, List.mem_singleton] at new
    exact (new ▸ allowed.1 : Event.IsRemark (.schedule id delay)).elim
  | start h e delay' =>
    cases List.mem_singleton.mp new
    exact .inr ⟨_, List.mem_singleton_self _, rfl⟩
  | fire h cause => cases cause <;> simp [newEvents] at new
  | _ => simp [newEvents] at new

/-- An entry that held a timer holds it still, unless the timer is cancelled or elapses. -/
theorem held?_move {id : Nat} (orderly : s.Orderly) (allowed : s.Allows m)
    (has : s.HasEntry .hold h e) (held : s.held? h e = some id) (left : id ∉ s.cancels m) :
    (s.move m).held? h e = some id ∨ m = .fire h (.held e) := by
  have unobserved := orderly.not_isObserved has
  have same (other : ∀ entry, s.onEntry h e entry m = entry) : (s.move m).held? h e = some id := by
    have keeps : (s.onEntry h e · m) = fun entry => entry := funext other
    rw [held?, s.move_entryAt? m has.lt, keeps, Option.map_id', ← held?, held]
  cases m with
  | watch h' e' id' =>
    refine .inl (same fun entry => if_neg ?_)
    rintro ⟨rfl, rfl⟩
    obtain ⟨o, there, -, own⟩ := allowed
    exact unobserved ⟨o, there, own⟩
  | start h' e' delay =>
    refine .inl (same fun entry => if_neg ?_)
    rintro ⟨rfl, rfl⟩
    cases held.symm.trans allowed.2
  | clear h' e' | quit h' e' =>
    refine .inl (same fun entry => if_neg ?_)
    rintro ⟨rfl, rfl⟩
    exact left (Option.mem_toList.mpr held)
  | fire h' cause =>
    cases cause with
    | held e' =>
      by_cases own : h = h' ∧ e = e'
      · obtain ⟨rfl, rfl⟩ := own
        exact .inr rfl
      · exact .inl (same fun entry => if_neg own)
    | revealed e' =>
      refine .inl (same fun entry => if_neg ?_)
      rintro ⟨rfl, rfl⟩
      exact unobserved allowed.1
    | event | alreadyPast | manual => exact .inl (same fun _ => rfl)
  | _ => exact .inl (same fun _ => rfl)

/-- A timer that has just been scheduled is not forgotten. -/
theorem not_forgot_start (orderly : s.Orderly) (tracked : s.Tracked) (delay : Duration)
    {timer : Timer} (new : timer.id = s.page.nextId) :
    ¬(s.move (.start h e delay)).Forgot timer := by
  obtain ⟨asked, remarks, grows⟩ := s.move_events (.start h e delay)
  -- Its number was not used before, so nothing has happened since.
  have unused : ∀ event ∈ s.events, (!event.schedules s.page.nextId) = true := by
    intro event mem
    cases event with
    | schedule id delay' =>
      obtain ⟨timer, there, rfl⟩ := tracked.made id delay' mem
      simpa [Event.schedules] using Nat.ne_of_lt (orderly.numbered.timer_lt there)
    | _ => rfl
  intro forgot
  rw [Forgot, since, new, grows, List.append_assoc, List.dropWhile_append_of_pos unused] at forgot
  have since : (s.newEvents (.start h e delay) ++ asked).dropWhile
      (fun event => !event.schedules s.page.nextId) = .schedule s.page.nextId delay :: asked := by
    simp [newEvents, Event.schedules]
  rw [since] at forgot
  cases forgot with
  | tail _ mem => exact remarks _ mem

section Tracked

variable (orderly : s.Orderly) (allowed : s.Allows m) (tracked : s.Tracked)

include allowed tracked in
theorem Tracked.forgot_move {timer : Timer} (there : timer ∈ s.page.timers) :
    (s.move m).Forgot timer ↔ s.Forgot timer ∨ m = .fire timer.handler (.held timer.entry) := by
  obtain ⟨delay, mem⟩ := tracked.scheduled timer there
  exact Scene.forgot_move mem allowed

include tracked in
theorem Tracked.scheduled_move {timer : Timer} (mem : timer ∈ (s.move m).page.timers) :
    ∃ delay, .schedule timer.id delay ∈ (s.move m).events := by
  obtain ⟨asked, -, grows⟩ := s.move_events m
  rcases old_or_new mem with ⟨old, there, _, rfl, -⟩ | new
  · obtain ⟨delay, mem'⟩ := tracked.scheduled old there
    exact ⟨delay, by rw [grows]; simp [mem']⟩
  · cases m with
    | start h e delay =>
      cases List.mem_singleton.mp new
      exact ⟨delay, by rw [grows]; simp [newEvents]⟩
    | _ => cases new

include allowed tracked in
theorem Tracked.made_move {id : Nat} {delay : Duration}
    (mem : .schedule id delay ∈ (s.move m).events) :
    ∃ timer ∈ (s.move m).page.timers, timer.id = id := by
  rcases schedule_of_move allowed mem with old | ⟨timer, new, same⟩
  · obtain ⟨timer, there, same⟩ := tracked.made id delay old
    obtain ⟨timer', there', renewed⟩ := (s.extends_move m).page.timer there
    exact ⟨timer', there', (congrArg (·.id) renewed).trans same⟩
  · cases m with
    | start h e delay' =>
      cases List.mem_singleton.mp new
      exact ⟨_, by simp [move, Page.schedule, hold, modifyEntry, modifyHandler], same⟩
    | _ => cases new

include orderly allowed tracked in
/-- An entry goes on to hold a timer that it has not forgotten, or has just come to hold it. -/
theorem Tracked.fresh_move {timer : Timer} (mem : timer ∈ (s.move m).page.timers)
    (held : (s.move m).held? timer.handler timer.entry = some timer.id) :
    ¬(s.move m).Forgot timer := by
  have orderly' := orderly.move allowed
  have unobserved := orderly'.not_isObserved (orderly'.timers timer mem)
  rcases s.held?_of_move m allowed held with before | rfl | ⟨delay, rfl, new⟩
  · rcases old_or_new mem with ⟨old, there, _, rfl, -⟩ | new
    · refine mt (tracked.forgot_move allowed there).mp ?_
      rintro (forgotten | rfl)
      · exact tracked.fresh old there before forgotten
      · cases held.symm.trans (held?_fire (orderly.timers old there))
    · -- What has just started is not held before.
      cases m with
      | start h e delay =>
        cases List.mem_singleton.mp new
        cases before.symm.trans allowed.2
      | _ => cases new
  · obtain ⟨o, there, -, own⟩ := allowed
    exact absurd ((s.extends_move _).isObserved ⟨o, there, own⟩) unobserved
  · exact not_forgot_start orderly tracked delay new

include orderly allowed tracked in
/-- An active timer stays held, or is forgotten when a timer of its entry elapses. -/
theorem Tracked.owned_move {timer : Timer} (mem : timer ∈ (s.move m).page.timers)
    (active : timer.active = true) :
    (s.move m).held? timer.handler timer.entry = some timer.id ∨ (s.move m).Forgot timer := by
  rcases old_or_new mem with ⟨old, there, _, rfl, was⟩ | new
  · have forgot := tracked.forgot_move allowed there
    obtain ⟨active', left⟩ := was active
    rcases tracked.owned old there active' with held | before
    · exact (held?_move orderly allowed (orderly.timers old there) held left).imp_right
        fun fires => forgot.mpr (.inr fires)
    · exact .inr (forgot.mpr (.inl before))
  · cases m with
    | start h e delay =>
      cases List.mem_singleton.mp new
      exact .inl (held?_start allowed.1 delay)
    | _ => cases new

include orderly allowed tracked in
/-- Every move keeps track of the timers. -/
theorem tracked_move : (s.move m).Tracked where
  scheduled _ mem := tracked.scheduled_move mem
  made _ _ mem := tracked.made_move allowed mem
  fresh _ mem held := tracked.fresh_move orderly allowed mem held
  owned _ mem active := tracked.owned_move orderly allowed mem active

end Tracked

/-- Between steps an active timer is held by its entry, or was forgotten. -/
theorem tracked_after (setup : Setup) (steps : List Step) : (setup.start.after steps).Tracked :=
  after_of_move (fun _ _ orderly allowed => tracked_move orderly allowed) setup
    (tracked_start setup) steps

/-! ### What an entry holds is active -/

/-- An entry holds a timer that is not active. -/
def Stale (s : Scene) (h e : Nat) : Prop :=
  ∃ timer ∈ s.page.timers, timer.handler = h ∧ timer.entry = e ∧ timer.active = false ∧
    s.held? h e = some timer.id

/-- An entry that holds a timer which is not active did so before. -/
def NoStaler (h e : Nat) (s t : Scene) : Prop := t.Stale h e → s.Stale h e

theorem chained_noStaler (h e : Nat) : Chained (NoStaler h e) :=
  ⟨fun _ => id, fun _ first second => first ∘ second⟩

/-- Only time makes a timer inactive that its entry goes on to hold. -/
theorem noStaler_move (orderly : s.Orderly) (allowed : s.Allows m) (still : ¬m.Advances) :
    NoStaler h e s (s.move m) := by
  rintro ⟨timer, mem, rfl, rfl, inactive, held⟩
  have orderly' := orderly.move allowed
  have unobserved' := orderly'.not_isObserved (orderly'.timers timer mem)
  have unwatched : ∀ id, m ≠ .watch timer.handler timer.entry id := by
    rintro id rfl
    obtain ⟨o, there, -, own⟩ := allowed
    exact unobserved' ((s.extends_move _).isObserved ⟨o, there, own⟩)
  rw [s.move_page_timers m still] at mem
  rcases List.mem_append.mp mem with was | new
  swap
  · cases m with
    | start h e delay =>
      cases List.mem_singleton.mp new
      cases inactive
    | _ => cases new
  obtain ⟨old, there, rfl⟩ := List.mem_map.mp was
  have unobserved := orderly.not_isObserved (orderly.timers old there)
  rcases s.held?_of_move m allowed held with before | watches | ⟨delay, -, new⟩
  · refine ⟨old, there, rfl, rfl, ?_, before⟩
    by_contra active
    have cancelled : old.id ∈ s.cancels m := by
      by_contra left
      rw [Timer.without_of_notMem left] at inactive
      exact active inactive
    have frees := orderly.frees_of_timer allowed there cancelled
    -- The entry gives up what it holds together with the timer.
    cases m with
    | clear h e | quit h e =>
      obtain ⟨rfl, rfl⟩ := frees
      cases held.symm.trans (s.held?_clear old.handler old.entry)
    | abandon h e id =>
      obtain ⟨rfl, rfl⟩ := frees
      obtain ⟨o, there', -, own⟩ := allowed
      exact unobserved ⟨o, there', own⟩
    | fire h cause =>
      cases cause with
      | revealed e =>
        obtain ⟨rfl, rfl⟩ := frees
        exact unobserved allowed.1
      | event | held | alreadyPast | manual => exact frees
    | _ => exact frees
  · exact absurd watches (unwatched _)
  · have used : old.id < s.page.nextId := orderly.numbered.timer_lt there
    exact absurd new (Nat.ne_of_lt used)

theorem closed_noStaler {kind : Move → Prop} (still : ∀ m, kind m → ¬m.Advances) :
    Closed (NoStaler h e) kind :=
  fun m is _ orderly allowed => noStaler_move orderly allowed (still m is)

theorem continues_noStaler (h' : Nat) : Closed (NoStaler h e) (Move.Continues h') :=
  closed_noStaler fun m continues advances => by
    cases m <;> first | exact continues.elim | exact advances.elim

section Callbacks

variable {react : Reaction} (admits : Admits (NoStaler h e) react)

theorem does_noStaler (c : Callback) : Closed (NoStaler h e) c.Does :=
  closed_noStaler fun m does advances => by
    cases m <;> first | exact advances.elim | (cases c <;> simp [Callback.Does] at does)

include admits

theorem fires_noStaler (h' : Nat) (cause : Cause) : Fires (NoStaler h e) react h' cause :=
  fires_of_closed (chained_noStaler h e) admits (continues_noStaler h')
    (closed_noStaler fun m begins advances => by subst begins; exact advances)

theorem leads_runAll_noStaler (callbacks : List Callback) (fits : ∀ c ∈ callbacks, s.Fits c) :
    s.Leads (NoStaler h e) (runAll react s callbacks) :=
  leads_runAll (chained_noStaler h e) callbacks fits fun c _ _ =>
    leads_run (chained_noStaler h e) (does_noStaler c) fun cause _ => fires_noStaler admits _ cause

/-- When a timer of an entry has elapsed, the entry holds none that is not active. -/
theorem not_stale_elapse (orderly : s.Orderly) (has : s.HasEntry .hold h e) :
    ¬(run react s (.elapse h e)).Stale h e := by
  have there : h < (s.enter h (.held e)).handlers.length :=
    (s.enter_handlers_length h (.held e)).symm ▸ has.lt
  obtain ⟨-, -, noStaler⟩ := leads_fired (chained_noStaler h e) admits (continues_noStaler h) there
    (orderly.move (m := .fire h (.held e)) has)
  intro stale
  obtain ⟨timer, -, -, -, -, held⟩ := noStaler stale
  cases held.symm.trans (held?_fire has)

/-- Among callbacks, that of an elapsed timer leaves its entry with none that is not active. -/
theorem not_stale_runAll (callbacks : List Callback) (fits : ∀ c ∈ callbacks, s.Fits c)
    (orderly : s.Orderly) (elapses : .elapse h e ∈ callbacks) :
    ¬(runAll react s callbacks).Stale h e := by
  obtain ⟨before, after, rfl⟩ := List.append_of_mem elapses
  have first := leads_runAll_noStaler admits before fun c mem => fits c (List.mem_append_left _ mem)
  obtain ⟨orderly₁, later₁, -⟩ := first orderly
  have has : (runAll react s before).HasEntry .hold h e := later₁.fits (fits (.elapse h e) elapses)
  have fresh := not_stale_elapse admits orderly₁ has
  -- The callbacks behind it keep what it leaves.
  have fired := fires_noStaler admits h (.held e) (runAll react s before) has
  obtain ⟨orderly₂, later₂, -⟩ := fired orderly₁
  have later := later₁.trans later₂
  have last := leads_runAll_noStaler admits after fun c mem => later.fits (fits c (by simp [mem]))
  obtain ⟨-, -, noStaler⟩ := last orderly₂
  have all : runAll react s (before ++ .elapse h e :: after) =
      runAll react (run react (runAll react s before) (.elapse h e)) after := by
    simp [runAll]
  rw [all]
  exact mt noStaler fresh

/-- When time has passed, the entries of the timers that were due hold none of them. -/
theorem leads_advance_noStaler (time : Duration) :
    s.Leads (NoStaler h e) (perform react s (.advance time)).2 := by
  intro orderly
  have later := s.extends_move (.advance time)
  have orderly' := orderly.move (m := .advance time) trivial
  have fits : ∀ c ∈ (s.page.advance time).due, (s.move (.advance time)).Fits c :=
    fun c mem => later.fits (orderly.fits_due mem)
  obtain ⟨ordered, extended, noStaler⟩ := leads_runAll_noStaler admits _ fits orderly'
  refine ⟨ordered, later.trans extended, fun stale => ?_⟩
  obtain ⟨timer, mem, rfl, rfl, inactive, held⟩ := noStaler stale
  obtain ⟨old, there, rfl⟩ := List.mem_map.mp mem
  refine ⟨old, there, rfl, rfl, ?_, held⟩
  by_contra active
  -- A timer that the page has just made inactive was due, and its callback has run.
  have was : old.active = true := by simpa using active
  have due : (s.page.advance time).isDue old = true := by simpa [was] using inactive
  have told : .elapse old.handler old.entry ∈ (s.page.advance time).due :=
    List.mem_map.mpr ⟨old, List.mem_filter.mpr ⟨there, due⟩, rfl⟩
  exact not_stale_runAll admits _ fits orderly' told stale

end Callbacks

theorem carried_noStaler (h e : Nat) : Carried (NoStaler h e) where
  toChained := chained_noStaler h e
  does := does_noStaler
  turns := closed_noStaler fun m turns advances => by
    cases m <;> first | exact turns.elim | exact advances.elim
  calls := fun admits c cause _ => fires_noStaler admits c.handler cause
  fires := fires_noStaler
  advance admits _ time := leads_advance_noStaler admits time

/-- Between steps no entry holds a timer that is not active. -/
theorem not_stale_after (setup : Setup) (steps : List Step) (h e : Nat) :
    ¬(setup.start.after steps).Stale h e := by
  have each (s : Scene) (step : Step) : s.Leads (NoStaler h e) (s.step step).2 := by
    refine (carried_noStaler h e).step (fun h' _ => closed_noStaler fun m binds advances => ?_)
      (fun h' _ => closed_noStaler fun m unwires advances => ?_)
      (closed_noStaler fun m rebinds advances => ?_)
    · rcases binds with wires | ⟨handler, rfl⟩
      · cases m <;> first | exact wires.elim | exact advances.elim
      · exact advances
    · cases m <;> first | exact unwires.elim | exact advances.elim
    · cases m <;> first | exact rebinds.elim | exact advances.elim
  have started : ¬setup.start.Stale h e := fun ⟨_, mem, _⟩ => nomatch mem
  obtain ⟨-, -, noStaler⟩ :=
    (chained_noStaler h e).leads_after each setup.start steps (orderly_start setup)
  exact mt noStaler started

/-! ### The timers of a handler -/

theorem mem_activeTimers {timer : Timer} :
    timer ∈ s.page.activeTimers ↔ timer ∈ s.page.timers ∧ timer.active = true := by
  simp [Page.activeTimers]

theorem mem_pendingOf {timer : Timer} :
    timer ∈ s.pendingOf h e ↔
      timer ∈ s.page.activeTimers ∧ timer.handler = h ∧ timer.entry = e := by
  simp [pendingOf, mem_timersOf, mem_activeTimers, and_assoc, and_left_comm, and_comm]

/-- The active timers of an entry that it has not forgotten. -/
def trackedOf (s : Scene) (h e : Nat) : List Timer := (s.pendingOf h e).filter fun t => ¬s.Forgot t

/-- The active timers of an entry that it has forgotten. -/
def forgottenOf (s : Scene) (h e : Nat) : List Timer := (s.pendingOf h e).filter fun t => s.Forgot t

theorem length_pendingOf (s : Scene) (h e : Nat) :
    (s.pendingOf h e).length = (s.forgottenOf h e).length + (s.trackedOf h e).length := by
  rw [trackedOf, forgottenOf, List.length_eq_length_filter_add fun t => decide (s.Forgot t)]
  simp only [decide_not]

section Handler

variable {handler : Handler} (known : s.handlers[h]? = some handler)
  (kind : handler.activation = .hold)

include known

theorem held?_eq : s.held? h e = handler.entries[e]?.bind (·.held) := by
  rw [held?, entryAt?, known]
  rfl

include kind

theorem hasEntry_of_held? {id : Nat} (held : s.held? h e = some id) : s.HasEntry .hold h e := by
  rw [held?_eq known] at held
  obtain ⟨entry, there, -⟩ := Option.bind_eq_some_iff.mp held
  exact ⟨handler, known, kind, (List.getElem?_eq_some_iff.mp there).1⟩

theorem isPending_iff : handler.isPending = true ↔ ∃ e id, s.held? h e = some id := by
  simp only [Handler.isPending, kind, decide_true, Bool.true_and, List.any_eq_true, held?_eq known]
  constructor
  · rintro ⟨entry, mem, some⟩
    obtain ⟨e, there⟩ := List.mem_iff_getElem?.mp mem
    obtain ⟨id, held⟩ := Option.isSome_iff_exists.mp some
    exact ⟨e, id, by rw [there, Option.bind_some, held]⟩
  · rintro ⟨e, id, held⟩
    obtain ⟨entry, there, held⟩ := Option.bind_eq_some_iff.mp held
    exact ⟨entry, List.mem_of_getElem? there, by rw [held]; rfl⟩

/-- An entry holds the active timer that it has not forgotten, and there is one at most. -/
theorem trackedOf_eq (orderly : s.Orderly) (tracked : s.Tracked) (live : ∀ e, ¬s.Stale h e)
    (e : Nat) : (s.trackedOf h e).map (·.id) = (s.held? h e).toList := by
  have owned {timer : Timer} (mem : timer ∈ s.trackedOf h e) : s.held? h e = some timer.id := by
    obtain ⟨pending, unforgotten⟩ := List.mem_filter.mp mem
    obtain ⟨active, rfl, rfl⟩ := mem_pendingOf.mp pending
    obtain ⟨there, active⟩ := mem_activeTimers.mp active
    exact (tracked.owned timer there active).resolve_right (of_decide_eq_true unforgotten)
  cases held : s.held? h e with
  | none =>
    have none : s.trackedOf h e = [] := List.eq_nil_iff_forall_not_mem.mpr fun timer mem => by
      cases held.symm.trans (owned mem)
    rw [none]
    rfl
  | some id =>
    have has := hasEntry_of_held? known kind held
    rcases orderly.held h e id held with ⟨timer, there, rfl, rfl, rfl⟩ | ⟨o, there, -, own⟩
    swap
    · exact absurd ⟨o, there, own⟩ (orderly.not_isObserved has)
    have active : timer.active = true := by
      by_contra inactive
      exact live timer.entry ⟨timer, there, rfl, rfl, by simpa using inactive, held⟩
    have mem : timer ∈ s.trackedOf timer.handler timer.entry :=
      List.mem_filter.mpr ⟨mem_pendingOf.mpr ⟨mem_activeTimers.mpr ⟨there, active⟩, rfl, rfl⟩,
        decide_eq_true (tracked.fresh timer there held)⟩
    have unique : ((s.trackedOf timer.handler timer.entry).map (·.id)).Nodup := by
      have sub : (s.trackedOf timer.handler timer.entry).Sublist s.page.timers :=
        List.filter_sublist.trans (List.filter_sublist.trans List.filter_sublist)
      exact ((List.nodup_append.mp orderly.numbered.nodup).2.1).sublist (sub.map _)
    -- Whatever is tracked is held, so there is nothing but this timer.
    have only : ((s.trackedOf timer.handler timer.entry).map (·.id)).Perm [timer.id] := by
      refine (List.perm_ext_iff_of_nodup unique (List.nodup_singleton _)).mpr fun id => ?_
      rw [List.mem_singleton]
      constructor
      · intro there
        obtain ⟨other, mem', rfl⟩ := List.mem_map.mp there
        exact Option.some.inj ((owned mem').symm.trans held)
      · rintro rfl
        exact List.mem_map_of_mem mem
    exact List.perm_singleton.mp only

end Handler

/-- Every entry of a handler has one active timer at most, and the handler is pending when there is
an active timer of an entry. -/
def OwnsTimers (s : Scene) (h : Nat) (handler : Handler) : Prop :=
  (∀ e, (s.pendingOf h e).length ≤ 1) ∧
    (handler.isPending = true ↔ ∃ timer ∈ s.page.activeTimers, timer.handler = h)

/-- How a holding handler and its timers belong together. -/
structure HoldsTimers (s : Scene) (h : Nat) (handler : Handler) : Prop where
  /-- An entry holds the active timer that it has not forgotten; there is one at most. -/
  held : ∀ e, (s.trackedOf h e).map (·.id) = (s.held? h e).toList
  /-- The handler is pending when there is such a timer. -/
  pending : handler.isPending = true ↔
    ∃ timer ∈ s.page.activeTimers, timer.handler = h ∧ ¬s.Forgot timer
  /-- Every active timer is held exactly as long as none is forgotten. -/
  reached : (∀ e, (s.pendingOf h e).map (·.id) = (s.held? h e).toList) ↔
    ∀ timer ∈ s.page.activeTimers, timer.handler = h → ¬s.Forgot timer
  /-- As long as none is forgotten the handler owns its timers. -/
  owns : (∀ timer ∈ s.page.activeTimers, timer.handler = h → ¬s.Forgot timer) →
    s.OwnsTimers h handler
  /-- It goes on to seem so as long as what is forgotten does not show. -/
  owns_iff : s.OwnsTimers h handler ↔
    (∀ e, (s.forgottenOf h e).length + (s.held? h e).toList.length ≤ 1) ∧
      ((∃ timer ∈ s.page.activeTimers, timer.handler = h ∧ s.Forgot timer) →
        handler.isPending = true)

section HoldsTimers

variable {handler : Handler} (known : s.handlers[h]? = some handler)
  (kind : handler.activation = .hold) (orderly : s.Orderly) (tracked : s.Tracked)
  (live : ∀ e, ¬s.Stale h e)

include known kind orderly tracked live

/-- Besides the timer that it holds, an entry has the active timers that it has forgotten. -/
theorem length_pendingOf_eq (e : Nat) :
    (s.pendingOf h e).length = (s.forgottenOf h e).length + (s.held? h e).toList.length := by
  rw [length_pendingOf, ← trackedOf_eq known kind orderly tracked live e, List.length_map]

/-- A handler is pending when it has an active timer that is not forgotten. -/
theorem isPending_iff_exists_timer : handler.isPending = true ↔
    ∃ timer ∈ s.page.activeTimers, timer.handler = h ∧ ¬s.Forgot timer := by
  rw [isPending_iff known kind]
  constructor
  · rintro ⟨e, id, holds⟩
    have ids : id ∈ (s.trackedOf h e).map (·.id) := by
      rw [trackedOf_eq known kind orderly tracked live, holds]
      exact List.mem_singleton_self id
    obtain ⟨timer, mem, rfl⟩ := List.mem_map.mp ids
    obtain ⟨there, unforgotten⟩ := List.mem_filter.mp mem
    obtain ⟨active, own, -⟩ := mem_pendingOf.mp there
    exact ⟨timer, active, own, of_decide_eq_true unforgotten⟩
  · rintro ⟨timer, active, rfl, unforgotten⟩
    obtain ⟨there, active⟩ := mem_activeTimers.mp active
    exact ⟨timer.entry, timer.id, (tracked.owned timer there active).resolve_right unforgotten⟩

/-- Every active timer is held exactly as long as none is forgotten. -/
theorem pendingOf_eq_iff : (∀ e, (s.pendingOf h e).map (·.id) = (s.held? h e).toList) ↔
    ∀ timer ∈ s.page.activeTimers, timer.handler = h → ¬s.Forgot timer := by
  constructor
  · intro all timer active own forgotten
    -- A forgotten timer would be one more than its entry holds.
    have mem : timer ∈ s.forgottenOf h timer.entry :=
      List.mem_filter.mpr ⟨mem_pendingOf.mpr ⟨active, own, rfl⟩, decide_eq_true forgotten⟩
    have same := congrArg List.length (all timer.entry)
    rw [List.length_map, length_pendingOf_eq known kind orderly tracked live] at same
    have some := List.length_pos_of_mem mem
    omega
  · intro none e
    rw [← trackedOf_eq known kind orderly tracked live e]
    refine congrArg _ (List.filter_eq_self.mpr fun timer mem => ?_).symm
    obtain ⟨active, own, -⟩ := mem_pendingOf.mp mem
    exact decide_eq_true (none timer active own)

/-- A handler owns its timers if no entry has more of them than one, and if forgotten timers do not
show in its being pending. -/
theorem ownsTimers_iff : s.OwnsTimers h handler ↔
    (∀ e, (s.forgottenOf h e).length + (s.held? h e).toList.length ≤ 1) ∧
      ((∃ timer ∈ s.page.activeTimers, timer.handler = h ∧ s.Forgot timer) →
        handler.isPending = true) := by
  have pending := isPending_iff_exists_timer known kind orderly tracked live
  unfold OwnsTimers
  simp only [length_pendingOf_eq known kind orderly tracked live]
  refine and_congr_right fun _ => ⟨fun all => ?_, fun shown => ⟨fun is => ?_, ?_⟩⟩
  · rintro ⟨timer, active, own, -⟩
    exact all.mpr ⟨timer, active, own⟩
  · obtain ⟨timer, active, own, -⟩ := pending.mp is
    exact ⟨timer, active, own⟩
  · rintro ⟨timer, active, own⟩
    by_cases forgotten : s.Forgot timer
    · exact shown ⟨timer, active, own, forgotten⟩
    · exact pending.mpr ⟨timer, active, own, forgotten⟩

theorem ownsTimers_of_unforgotten
    (none : ∀ timer ∈ s.page.activeTimers, timer.handler = h → ¬s.Forgot timer) :
    s.OwnsTimers h handler := by
  refine (ownsTimers_iff known kind orderly tracked live).mpr ⟨fun e => ?_, ?_⟩
  · have nothing : s.forgottenOf h e = [] := by
      refine List.filter_eq_nil_iff.mpr fun timer mem forgotten => ?_
      obtain ⟨active, own, -⟩ := mem_pendingOf.mp mem
      exact none timer active own (of_decide_eq_true forgotten)
    rw [nothing]
    cases s.held? h e <;> simp
  · rintro ⟨timer, active, own, forgotten⟩
    exact absurd forgotten (none timer active own)

theorem holdsTimers : s.HoldsTimers h handler where
  held := trackedOf_eq known kind orderly tracked live
  pending := isPending_iff_exists_timer known kind orderly tracked live
  reached := pendingOf_eq_iff known kind orderly tracked live
  owns := ownsTimers_of_unforgotten known kind orderly tracked live
  owns_iff := ownsTimers_iff known kind orderly tracked live

end HoldsTimers

/-- Between steps this is how every holding handler and its timers belong together, whatever the
effects do to the page. -/
theorem holdsTimers_after (setup : Setup) (steps : List Step) {h : Nat} {handler : Handler}
    (known : (setup.start.after steps).handlers[h]? = some handler)
    (kind : handler.activation = .hold) : (setup.start.after steps).HoldsTimers h handler :=
  holdsTimers known kind (orderly_after setup steps) (tracked_after setup steps)
    (not_stale_after setup steps h)

/-- Two buttons that can be held; the first effect call presses the second button. -/
def pressingButtons : Setup :=
  .plain [("button", [1, 2])] [("fall", [PageStep.emit (.target 2) EventName.pressStart])] 1

/-- Both buttons are held until their timers are due together. -/
def holdingBoth : List Step :=
  [.bind .engine (.blocks [⟨"button", [⟨"onhold.click", [⟨"text", "fall"⟩]⟩]⟩]), .press 1, .press 2,
    .page (.advance (.ofMillis 500))]

/-- The new timer of the second button is active, and forgotten. -/
theorem holdsTimers_holdingBoth :
    let s := pressingButtons.start.after holdingBoth
    ∃ handler, s.handlers[0]? = some handler ∧ handler.activation = .hold ∧
      (s.forgottenOf 0 1).length = 1 ∧ s.HoldsTimers 0 handler := by
  intro s
  have facts : s.handlers.map (·.activation) = [.hold] ∧ (s.forgottenOf 0 1).length = 1 := by
    decide +kernel
  obtain ⟨handler, known, kind⟩ : ∃ handler, s.handlers[0]? = some handler ∧
      handler.activation = .hold := by
    have first := congrArg (·[0]?) facts.1
    rw [List.getElem?_map] at first
    exact Option.map_eq_some_iff.mp first
  exact ⟨handler, known, kind, facts.2, holdsTimers_after pressingButtons holdingBoth known kind⟩

/-- The handler is not pending although its timer is active, and with another press one entry has
two active timers. -/
theorem not_ownsTimers_holdingBoth :
    let s := pressingButtons.start.after holdingBoth
    ∃ handler, s.handlers[0]? = some handler ∧ handler.activation = .hold ∧
      handler.isPending = false ∧ ¬s.OwnsTimers 0 handler ∧
      ((s.step (.press 2)).2.pendingOf 0 1).length = 2 := by
  intro s
  have facts : s.handlers.map (fun handler => (handler.activation, handler.isPending)) =
      [(.hold, false)] ∧ (∃ timer ∈ s.page.activeTimers, timer.handler = 0) ∧
      ((s.step (.press 2)).2.pendingOf 0 1).length = 2 := by
    decide +kernel
  obtain ⟨all, active, two⟩ := facts
  have first := congrArg (·[0]?) all
  rw [List.getElem?_map] at first
  obtain ⟨handler, known, is⟩ := Option.map_eq_some_iff.mp first
  have idle : handler.isPending = false := congrArg Prod.snd is
  refine ⟨handler, known, congrArg Prod.fst is, idle, fun owns => ?_, two⟩
  cases idle.symm.trans (owns.2.mpr active)

end Scene

end TriggerSheet
