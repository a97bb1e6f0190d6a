import TriggerSheet.Proofs.Scene.Forget
import TriggerSheet.Proofs.Scene.Mute
import TriggerSheet.Proofs.Scene.Observation

/-!
# The ledger of cancellations

No registration is cancelled twice, and none before it was made. A listener is cancelled when its
handler is unbound, an observer at the first view of its element or when its handler is unbound, and
a timer only while its entry holds it, so never after it elapsed.

## Main definitions

* `Event.registers` — a registration is made
* `Scene.Noted` — every registration was noted, before it is cancelled
* `Scene.Clocked` — timers are cancelled only while they are held
* `Scene.Ledger` — what is cancelled in a play, and when

## Main results

* `Scene.noted_move`, `Scene.clocked_move` — every move keeps the books
* `Scene.ledger_after` — the ledger of every play
-/

namespace TriggerSheet

/-- A registration with a number is made. -/
def Event.registers (id : Nat) : Event → Bool
  | listen i _ _ | observe i _ _ | schedule i _ => i = id
  | _ => false

namespace Scene

variable {s : Scene} {h e id : Nat} {m : Move}

/-! ### What is cancelled was registered -/

/-- Every registration was noted when it was made, and none is cancelled before. -/
structure Noted (s : Scene) : Prop where
  made : ∀ id ∈ s.page.ids, ∃ event ∈ s.events, event.registers id = true
  cancelled : ∀ id before rest, s.events = before ++ .cancel id :: rest →
    ∃ event ∈ before, event.registers id = true

/-- A number that is taken after a move was taken before, or the move notes what takes it. -/
theorem id_mem_move (mem : id ∈ (s.move m).page.ids) :
    id ∈ s.page.ids ∨ ∃ event ∈ s.newEvents m, event.registers id = true := by
  rcases Page.mem_ids.mp mem with ⟨l, there, rfl⟩ | ⟨o, there, rfl⟩ | ⟨t, there, rfl⟩
  · rcases listener_of_move there with ⟨old, there', same⟩ | new
    · have ids : old.id = l.id := congrArg (·.id) same
      exact .inl (ids ▸ Page.id_listener_mem there')
    · cases m with
      | listen h scope event c =>
        have ids : l.id = s.page.nextId := congrArg (·.id) (List.mem_singleton.mp new)
        exact .inr ⟨_, List.mem_singleton_self _, by simp [Event.registers, ids]⟩
      | _ => cases new
  · rcases observer_of_move there with ⟨old, there', same⟩ | new
    · have ids : old.id = o.id := congrArg (·.id) same
      exact .inl (ids ▸ Page.id_observer_mem there')
    · cases m with
      | observe h e target threshold =>
        have ids : o.id = s.page.nextId := congrArg (·.id) (List.mem_singleton.mp new)
        exact .inr ⟨_, List.mem_singleton_self _, by simp [Event.registers, ids]⟩
      | _ => cases new
  · rcases timer_of_move there with ⟨old, there', same⟩ | new
    · have ids : old.id = t.id := congrArg (·.id) same
      exact .inl (ids ▸ Page.id_timer_mem there')
    · cases m with
      | start h e delay =>
        have ids : t.id = s.page.nextId := congrArg (·.id) (List.mem_singleton.mp new)
        exact .inr ⟨_, List.mem_singleton_self _, by simp [Event.registers, ids]⟩
      | _ => cases new

/-- What a move cancels is registered. -/
theorem Orderly.id_mem_of_cancels (orderly : s.Orderly) (allowed : s.Allows m)
    (mem : id ∈ s.cancels m) : id ∈ s.page.ids := by
  rcases orderly.owner_of_cancels allowed mem with
    ⟨l, there, rfl, -⟩ | ⟨t, there, rfl, -⟩ | ⟨o, there, rfl, -⟩
  · exact Page.id_listener_mem there
  · exact Page.id_timer_mem there
  · exact Page.id_observer_mem there

theorem noted_move (orderly : s.Orderly) (allowed : s.Allows m) (noted : s.Noted) :
    (s.move m).Noted where
  made id mem := by
    obtain ⟨asked, -, grows⟩ := s.move_events m
    rw [grows, List.append_assoc]
    rcases id_mem_move mem with old | ⟨event, new, is⟩
    · obtain ⟨event, there, is⟩ := noted.made id old
      exact ⟨event, List.mem_append_left _ there, is⟩
    · exact ⟨event, List.mem_append_right _ (List.mem_append_left _ new), is⟩
  cancelled id before rest split := by
    rcases split_cancel_move allowed split with ⟨rest', old⟩ | ⟨mem, rfl⟩
    · exact noted.cancelled id before rest' old
    · obtain ⟨event, there, is⟩ := noted.made id (orderly.id_mem_of_cancels allowed mem)
      exact ⟨event, List.mem_append_left _ there, is⟩

theorem noted_after (setup : Setup) (steps : List Step) : (setup.start.after steps).Noted :=
  after_of_move (fun _ _ orderly allowed => noted_move orderly allowed) setup
    ⟨by simp [Setup.start, Page.ids], by simp [Setup.start, events]⟩ steps

/-! ### Timers -/

/-- A timer is cancelled once at most and not while it is held, and never after it elapsed. -/
structure Clocked (s : Scene) : Prop where
  once : ∀ timer ∈ s.page.timers, s.events.count (.cancel timer.id) +
    (if s.held? timer.handler timer.entry = some timer.id then 1 else 0) ≤ 1
  elapsed : ∀ timer ∈ s.page.timers, ∀ before delay since rest,
    s.events = before ++ .schedule timer.id delay ::
      (since ++ .called (.elapse timer.handler timer.entry) :: rest) →
    .cancel timer.id ∉ rest

/-- A timer that a move cancels is given up by the entry that held it. -/
theorem held?_of_cancels (orderly : s.Orderly) (allowed : s.Allows m) {timer : Timer}
    (there : timer ∈ s.page.timers) (mem : timer.id ∈ s.cancels m) :
    s.held? timer.handler timer.entry = some timer.id ∧
      (s.move m).held? timer.handler timer.entry = none ∧ m.heard = [] := by
  have has := orderly.timers timer there
  have frees := orderly.frees_of_timer allowed there mem
  cases m with
  | abandon h e id =>
    obtain ⟨o, there', same, -⟩ := allowed
    rw [← List.mem_singleton.mp mem] at same
    exact absurd same (orderly.numbered.observer_ne_timer there' there)
  | clear h e | quit h e =>
    obtain ⟨rfl, rfl⟩ := frees
    exact ⟨Option.mem_toList.mp mem, s.held?_clear _ _, rfl⟩
  | fire h cause =>
    cases cause with
    | revealed e =>
      obtain ⟨rfl, rfl⟩ := frees
      exact absurd allowed.1 (orderly.not_isObserved has)
    | event | held | alreadyPast | manual => exact frees.elim
  | _ => exact frees.elim

/-- What happened behind the scheduling of a timer happened since. -/
theorem mem_since {before rest : List Event} {delay : Duration} {event : Event}
    (split : s.events = before ++ .schedule id delay :: rest) (mem : event ∈ rest) :
    event ∈ s.since id := by
  rw [since, split, List.dropWhile_append]
  split
  · rw [List.dropWhile_cons_of_neg (by simp [Event.schedules])]
    exact List.mem_cons_of_mem _ mem
  · exact List.mem_append_right _ (List.mem_cons_of_mem _ mem)

section Timers

variable (orderly : s.Orderly) (allowed : s.Allows m) (clocked : s.Clocked)

include orderly

/-- A number that is yet to be given is not cancelled. -/
theorem Orderly.count_cancel_nextId : s.events.count (.cancel s.page.nextId) = 0 :=
  List.count_eq_zero.mpr fun mem =>
    Nat.lt_irrefl _ (orderly.numbered.lt _ (orderly.cancelled _ mem))

include allowed clocked

theorem Clocked.once_move {timer : Timer} (mem : timer ∈ (s.move m).page.timers) :
    (s.move m).events.count (.cancel timer.id) +
      (if (s.move m).held? timer.handler timer.entry = some timer.id then 1 else 0) ≤ 1 := by
  rw [count_cancel_move allowed]
  rcases old_or_new mem with ⟨old, there, active, rfl, -⟩ | new
  · have once := clocked.once old there
    have one := s.length_cancels_le m
    have count := List.count_le_length (a := old.id) (l := s.cancels m)
    by_cases cancelled : old.id ∈ s.cancels m
    · obtain ⟨held, free, -⟩ := held?_of_cancels orderly allowed there cancelled
      rw [if_pos held] at once
      simp only [free, reduceCtorEq, if_false]
      omega
    · rw [List.count_eq_zero.mpr cancelled]
      -- An entry holds a timer that is not new only if it held it before.
      have held (is : (s.move m).held? old.handler old.entry = some old.id) :
          s.held? old.handler old.entry = some old.id := by
        rcases s.held?_of_move m allowed is with before | rfl | ⟨delay, rfl, new⟩
        · exact before
        · obtain ⟨o, there', same, -⟩ := allowed
          exact absurd same (orderly.numbered.observer_ne_timer there' there)
        · exact absurd new (Nat.ne_of_lt (orderly.numbered.timer_lt there))
      split
      next is =>
        rw [if_pos (held is)] at once
        exact once
      next => exact Nat.le_trans (Nat.le_add_right _ _) once
  · cases m with
    | start h e delay =>
      cases List.mem_singleton.mp new
      rw [orderly.count_cancel_nextId]
      split <;> simp [cancels]
    | _ => cases new

theorem Clocked.elapsed_move (tracked : s.Tracked) {timer : Timer}
    (mem : timer ∈ (s.move m).page.timers) {before since rest : List Event} {delay : Duration}
    (happened : (s.move m).events = before ++ .schedule timer.id delay ::
      (since ++ .called (.elapse timer.handler timer.entry) :: rest)) :
    .cancel timer.id ∉ rest := by
  intro cancelled
  obtain ⟨between, rest', rfl⟩ := List.append_of_mem cancelled
  have split : (s.move m).events = (before ++ .schedule timer.id delay ::
      (since ++ .called (.elapse timer.handler timer.entry) :: between)) ++
      .cancel timer.id :: rest' := by
    rw [happened]
    simp
  rcases old_or_new mem with ⟨old, there, active, rfl, -⟩ | new
  · rcases split_cancel_move allowed split with ⟨rest'', was⟩ | ⟨now, was⟩
    · exact clocked.elapsed old there before delay since (between ++ .cancel old.id :: rest'')
        (by rw [was]; simp) (by simp)
    · -- The entry holds the timer by then, so it has not forgotten it.
      obtain ⟨held, -, heard⟩ := held?_of_cancels orderly allowed there now
      rw [heard, List.append_nil] at was
      exact tracked.fresh old there held (mem_since was.symm (by simp))
  · cases m with
    | start h e delay' =>
      cases List.mem_singleton.mp new
      have none := orderly.count_cancel_nextId
      have some : .cancel s.page.nextId ∈ (s.move (.start h e delay')).events := by
        rw [split]
        simp
      rw [cancel_mem_move allowed] at some
      exact some.elim (List.count_eq_zero.mp none) List.not_mem_nil
    | _ => cases new

theorem clocked_move (tracked : s.Tracked) : (s.move m).Clocked where
  once _ mem := clocked.once_move orderly allowed mem
  elapsed _ mem _ _ _ _ happened := clocked.elapsed_move orderly allowed tracked mem happened

end Timers

theorem clocked_after (setup : Setup) (steps : List Step) : (setup.start.after steps).Clocked := by
  have kept := after_of_move (P := fun s => s.Tracked ∧ s.Clocked)
    (fun _ _ orderly allowed ⟨tracked, clocked⟩ =>
      ⟨tracked_move orderly allowed tracked, clocked_move orderly allowed clocked tracked⟩) setup
    ⟨tracked_start setup, by simp [Setup.start], by simp [Setup.start]⟩ steps
  exact kept.2

/-! ### Plays -/

/-- What is cancelled in the scene behind some steps, and when. As this is told behind every step of
a play, it says for each cancellation in which step it happens. -/
structure Ledger (start : Scene) (steps : List Step) : Prop where
  /-- No registration is cancelled twice, -/
  once : ∀ id, (start.after steps).events.count (.cancel id) ≤ 1
  /-- and none before it was made. -/
  registered : ∀ id before rest, (start.after steps).events = before ++ .cancel id :: rest →
    ∃ event ∈ before, event.registers id = true
  /-- A listener is cancelled if its handler is unbound, and not otherwise. -/
  listeners : ∀ l ∈ (start.after steps).page.listeners,
    .cancel l.id ∈ (start.after steps).events ↔ l.callback.handler ∈ start.unboundIn steps
  /-- Handlers that are dropped are not unbound, and nothing is cancelled. -/
  drops : ∀ b, (start.after steps).unbinds (.drop b) = [] ∧
    ((start.after steps).step (.drop b)).2.events = (start.after steps).events
  /-- An observer is cancelled at its ending, and not before its element entered the view or its
  handler is unbound. -/
  observers : ∀ o ∈ (start.after steps).page.observers, ∃ b ∈ start.bindsIn steps,
    ∃ target, b.Makes o target ∧
      (.called (.see o.handler o.entry true) ∉ (start.after steps).events ∧
          o.handler ∉ start.unboundIn steps ∧ .cancel o.id ∉ (start.after steps).events ∨
        ∃ before rest, (start.after steps).events = before ++ .cancel o.id :: rest ∧
          Ending (b.returned target o.entry) (start.unboundIn steps) o.handler o.entry before)
  /-- A timer is not cancelled after it elapsed. -/
  timers : ∀ t ∈ (start.after steps).page.timers, ∀ before delay since rest,
    (start.after steps).events = before ++ .schedule t.id delay ::
      (since ++ .called (.elapse t.handler t.entry) :: rest) → .cancel t.id ∉ rest

/-- An observer that its entry holds was not seen, and its handler is not unbound. -/
theorem Awaits.pending {setup : Setup} {steps : List Step} {r : Scene}
    (awaits : (setup.start.after steps).Awaits r h e id)
    (has : (setup.start.after steps).HasEntry .reveal h e) :
    .called (.see h e true) ∉ (setup.start.after steps).events ∧
      h ∉ setup.start.unboundIn steps ∧ .cancel id ∉ (setup.start.after steps).events := by
  obtain ⟨-, o, only, active⟩ := (tended_after setup steps).revealsOnce h e has
  obtain ⟨unseen, o', only', is, -⟩ := awaits.watching
  obtain rfl : o = o' := List.singleton_inj.mp (only.symm.trans only')
  exact ⟨unseen.told, (active.mp is).2, awaits.kept⟩

/-- An observer is cancelled at most once. -/
theorem Attended.count_cancel_le {r : Scene} {unbound : List Nat}
    (attended : s.Attended r unbound h e id) : s.events.count (.cancel id) ≤ 1 := by
  rcases attended.state with awaits | ended
  · rw [List.count_eq_zero.mpr awaits.kept]
    exact Nat.zero_le 1
  · obtain ⟨before, rest, split, first, last, -⟩ := ended.once
    simp [split, List.count_eq_zero.mpr first, List.count_eq_zero.mpr last]

theorem count_cancel_le_one (setup : Setup) (steps : List Step) (id : Nat) :
    (setup.start.after steps).events.count (.cancel id) ≤ 1 := by
  by_cases cancelled : .cancel id ∈ (setup.start.after steps).events
  swap
  · rw [List.count_eq_zero.mpr cancelled]
    exact Nat.zero_le 1
  -- What is cancelled is a listener, an observer or a timer.
  rcases Page.mem_ids.mp ((orderly_after setup steps).cancelled id cancelled) with
    ⟨l, there, rfl⟩ | ⟨o, there, rfl⟩ | ⟨t, there, rfl⟩
  · rw [count_cancel_listener setup steps there]
    split <;> decide
  · obtain ⟨b, -, target, -, attended⟩ := attended_after setup steps there
    exact attended.count_cancel_le
  · exact Nat.le_trans (Nat.le_add_right _ _) ((clocked_after setup steps).once t there)

/-- In every play, with whatever effects and whatever the page tells, also while an observer is made
and where timers run at once, a registration is cancelled once at most, after it was made: a
listener with its handler, an observer at its ending, and a timer not after it elapsed. -/
theorem ledger_after (setup : Setup) (steps : List Step) : setup.start.Ledger steps where
  once := count_cancel_le_one setup steps
  registered := (noted_after setup steps).cancelled
  listeners l mem := by
    rw [← List.count_pos_iff, count_cancel_listener setup steps mem]
    split
    next unbound => simp [unbound]
    next bound => simp [bound]
  drops b := by
    refine ⟨rfl, ?_⟩
    simp only [step, withBinding]
    split <;> rfl
  observers o mem := by
    obtain ⟨b, bound, target, makes, attended⟩ := attended_after setup steps mem
    refine ⟨b, bound, target, makes, ?_⟩
    rcases attended.state with awaits | ended
    · exact .inl (awaits.pending attended.has)
    · obtain ⟨before, rest, split, -, -, ending⟩ := ended.once
      exact .inr ⟨before, rest, split, ending⟩
  timers := (clocked_after setup steps).elapsed

end Scene

end TriggerSheet
