import TriggerSheet.Proofs.Scene.Handed
import TriggerSheet.Proofs.Scene.Release

/-!
# Unbinding

A handler that is unbound is at rest for good: none of its registrations is active, so no event, no
view and no point of time calls it back, and no binding hands it out, so it is not told to fire.
While effects take no page steps, and on a page that does not call cancelled observers, nothing is
registered for it again.

## Main definitions

* `Move.Rouses` — the moves that register something for a handler, or fire it
* `Scene.Rests` — a handler that is released stays so and does not fire

## Main results

* `Scene.leads_rests_step` — no step rouses a handler that is released and not handed out
* `Scene.unbind_releases` — unbinding releases what it names for good, and touches nothing else
-/

namespace TriggerSheet

/-- The moves that register something for a handler, or fire it. -/
def Move.Rouses (h : Nat) : Move → Prop
  | listen h' _ _ _ | observe h' _ _ _ | start h' _ _ | fire h' _ => h' = h
  | _ => False

namespace Scene

variable {s : Scene} {h : Nat} {m : Move}

/-- The firings of a handler. -/
def firingsOf (s : Scene) (h : Nat) : List Firing := s.firings.filter (·.handler = h)

/-! ### What leaves a handler at rest -/

theorem Released.move (released : s.Released h) (allowed : s.Allows m) (still : ¬m.Rouses h) :
    (s.move m).Released h where
  listeners l mem own := by
    rw [move_page_listeners] at mem
    rcases List.mem_append.mp mem with old | new
    · obtain ⟨l', there, rfl⟩ := List.mem_map.mp old
      simp [Listener.without, released.listeners l' there own]
    · cases m with
      | listen h' scope event c =>
        cases List.mem_singleton.mp new
        exact absurd (allowed.2.1.symm.trans own) still
      | _ => cases new
  observers o mem own := by
    rw [move_page_observers] at mem
    rcases List.mem_append.mp mem with old | new
    · obtain ⟨o', there, rfl⟩ := List.mem_map.mp old
      simp [Observer.without, released.observers o' there own]
    · cases m with
      | observe h' e target threshold =>
        cases List.mem_singleton.mp new
        exact absurd own still
      | _ => cases new
  timers t mem own := by
    by_cases advances : m.Advances
    · cases m with
      | advance time =>
        obtain ⟨t', there, rfl⟩ := List.mem_map.mp mem
        have there : t' ∈ s.page.timers := there
        simp [released.timers t' there own]
      | _ => exact advances.elim
    rw [s.move_page_timers m advances] at mem
    rcases List.mem_append.mp mem with old | new
    · obtain ⟨t', there, rfl⟩ := List.mem_map.mp old
      simp [Timer.without, released.timers t' there own]
    · cases m with
      | start h' e delay =>
        cases List.mem_singleton.mp new
        exact absurd own still
      | _ => cases new

theorem firingsOf_move (orderly : s.Orderly) (allowed : s.Allows m) (still : ¬m.Rouses h) :
    (s.move m).firingsOf h = s.firingsOf h := by
  cases m with
  | fire h' cause =>
    have other : h' ≠ h := still
    rw [firingsOf, move_fire_firings s (orderly.lt_of_mayFire allowed), List.filter_append]
    simp [firingsOf, other]
  | _ =>
    simp [firingsOf, Scene.move, hold, modifyEntry, modifyHandler, cancel, listen, countFiring, log]

/-- While effects take no page steps, a handler that is released stays so and does not fire. -/
def Rests (h : Nat) (s t : Scene) : Prop :=
  s.setup.Quiet → s.Released h → t.Released h ∧ t.firingsOf h = s.firingsOf h

theorem chained_rests (h : Nat) : Chained (Rests h) where
  refl _ := fun _ released => ⟨released, rfl⟩
  trans later first second := fun quiet released =>
    have ⟨released', same⟩ := first quiet released
    have ⟨released'', same'⟩ := second (later.quiet quiet) released'
    ⟨released'', same'.trans same⟩

theorem closed_rests {kind : Move → Prop} (still : ∀ m, kind m → ¬m.Rouses h) :
    Closed (Rests h) kind :=
  fun m is _ orderly allowed _ released =>
    ⟨released.move allowed (still m is), firingsOf_move orderly allowed (still m is)⟩

/-- The firings of others leave a handler at rest. -/
theorem fires_rests (depth : Nat) {h' : Nat} (other : h' ≠ h) (cause : Cause) :
    Fires (Rests h) (reactWithin depth) h' cause := by
  have admits : Admits (Rests h) (reactWithin depth) :=
    admits_of_quiet (fun _ released => ⟨released, rfl⟩) depth
  refine fires_of_closed (chained_rests h) admits (closed_rests fun m continues rouses => ?_)
    (closed_rests fun m begins rouses => ?_)
  · cases m <;> first | exact continues.elim | exact rouses.elim
  · subst begins
    exact other rouses

/-- The callbacks of others leave a handler at rest. -/
theorem leads_rests_runAll (depth : Nat) {callbacks : List Callback}
    (others : ∀ c ∈ callbacks, c.handler ≠ h) (fits : ∀ c ∈ callbacks, s.Fits c) :
    s.Leads (Rests h) (runAll (reactWithin depth) s callbacks) := by
  refine leads_runAll (chained_rests h) callbacks fits fun c mem t fits =>
    leads_run (chained_rests h) (closed_rests fun m does rouses => ?_)
      (fun cause _ => fires_rests depth (others c mem) cause) fits
  -- Of the moves of a callback only the start of a timer registers something.
  cases c with
  | press h' e =>
    rcases does with rfl | rfl | rfl | ⟨_, rfl⟩
    · exact rouses
    · exact rouses
    · exact rouses
    · exact others _ mem rouses
  | release h' e => rcases does with rfl | rfl <;> exact rouses
  | see h' e entered =>
    cases does
    exact rouses
  | event | elapse => exact does.elim

/-! ### Steps -/

/-- What the page calls back is active, so it is not a handler at rest. -/
theorem leads_rests_perform (released : s.Released h) (honours : s.setup.ignoreUnobserve = false)
    (depth : Nat) (p : PageStep) : s.Leads (Rests h) (perform (reactWithin depth) s p).2 := by
  cases p with
  | emit scope event =>
    intro orderly
    refine leads_rests_runAll depth (fun c mem own => ?_) (fun c => orderly.fits_listening) orderly
    obtain ⟨l, listens, rfl⟩ := List.mem_map.mp mem
    obtain ⟨there, is⟩ := List.mem_filter.mp listens
    simp [released.listeners l there own] at is
  | visibility target entered =>
    refine leads_rests_runAll depth (fun c mem own => ?_) fun c => fits_observing
    obtain ⟨o, observes, rfl⟩ := List.mem_map.mp mem
    obtain ⟨there, is⟩ := List.mem_filter.mp observes
    simp [released.observers o there own, honours] at is
  | advance time =>
    intro orderly
    have passes : Closed (Rests h) Move.Advances := closed_rests fun m advances rouses => by
      cases m <;> first | exact advances.elim | exact rouses.elim
    refine (chained_rests h).leads_trans (passes.leads (m := .advance time) trivial trivial)
      (leads_rests_runAll depth (fun c mem own => ?_) fun c mem => ?_) orderly
    · obtain ⟨t, due, rfl⟩ := List.mem_map.mp mem
      obtain ⟨there, is⟩ := List.mem_filter.mp due
      simp [Page.isDue, released.timers t there own] at is
    · exact (s.extends_move (.advance time)).fits (orderly.fits_due mem)
  | setMatches | setLoaded | setContentReady =>
    have turns : Closed (Rests h) Move.Turns := closed_rests fun m turns rouses => by
      cases m <;> first | exact turns.elim | exact rouses.elim
    exact turns.leads (m := .turn ..) trivial trivial
  | pause => exact (chained_rests h).leads_refl s

/-- No step rouses a handler that is released and not handed out. -/
theorem leads_rests_step (released : s.Released h) (withheld : s.Withheld h)
    (bound : h < s.handlers.length) (honours : s.setup.ignoreUnobserve = false) (step : Step) :
    s.Leads (Rests h) (s.step step).2 := by
  have rebinds : Closed (Rests h) Move.Rebinds := closed_rests fun m rebinds rouses => by
    cases m <;> first | exact rebinds.elim | exact rouses.elim
  refine (chained_rests h).leads_step (fun p _ => leads_rests_perform released honours s.budget p)
    (fun route source _ => leads_bind (chained_rests h) (fun h' later => ?_)
      (fun depth h' cause later => fires_rests depth (by omega) cause) rebinds route source)
    (fun b place h' _ found depth => fires_rests depth (fun same => ?_) .manual)
    (fun h' _ => closed_rests fun m unwires rouses => ?_) rebinds
  · -- A bind registers for handlers that are new.
    refine closed_rests fun m binds rouses => ?_
    rcases binds with wires | ⟨handler, rfl⟩
    · cases m with
      | listen | observe =>
        have own : _ = h' := wires
        have same : _ = h := rouses
        omega
      | _ => first | exact wires.elim | exact rouses.elim
    · exact rouses
  · exact withheld b place (same ▸ found)
  · cases m <;> first | exact unwires.elim | exact rouses.elim

/-! ### Plays -/

/-- A handler that is released and not handed out is at rest for good. -/
theorem rests_after (orderly : s.Orderly) (quiet : s.setup.Quiet)
    (honours : s.setup.ignoreUnobserve = false) (bound : h < s.handlers.length)
    (released : s.Released h) (withheld : s.Withheld h) (steps : List Step) :
    (s.after steps).Released h ∧ (s.after steps).firingsOf h = s.firingsOf h := by
  induction steps generalizing s with
  | nil => exact ⟨released, rfl⟩
  | cons step rest ih =>
    obtain ⟨orderly', later, rests⟩ :=
      leads_rests_step released withheld bound honours step orderly
    obtain ⟨released', same⟩ := rests quiet released
    have honours' : (s.step step).2.setup.ignoreUnobserve = false := later.setup ▸ honours
    obtain ⟨released'', same'⟩ := ih orderly' (later.quiet quiet) honours'
      (Nat.lt_of_lt_of_le bound later.length_handlers) released' (withheld.step orderly bound step)
    exact ⟨released'', same'.trans same⟩

/-- Unbinding releases the handlers that it names, for good: no registration of theirs is active any
more, whenever it was made, and they never fire again. It touches no other registration, no other
handler and no firing. -/
theorem unbind_releases {setup : Setup} (quiet : setup.Quiet)
    (honours : setup.ignoreUnobserve = false) (before : List Step) {step : Step}
    (unbinds : step.Unbinds) :
    let s := setup.start.after before
    let t := (s.step step).2
    t.page = s.page.release (s.named step) ∧ t.firings = s.firings ∧
      (∀ h ∉ s.named step, t.handlers[h]? = s.handlers[h]?) ∧
      ∀ h ∈ s.named step, ∀ rest,
        (t.after rest).Released h ∧ (t.after rest).firingsOf h = s.firingsOf h := by
  intro s t
  obtain ⟨orderly, started⟩ := (orderly_start setup).after before
  obtain ⟨orderly', later, apart⟩ := leads_apart_step unbinds orderly
  have handsOut := handsOut_after setup before
  have released (h : Nat) (mem : h ∈ s.named step) : t.Released h := released_step quiet before mem
  refine ⟨?_, apart.firings, apart.handlers, fun h mem rest => ?_⟩
  · rw [← apart.page, release_of_released released]
  · have rests := rests_after orderly' (later.quiet (started.quiet quiet))
      ((started.trans later).setup ▸ honours)
      (Nat.lt_of_lt_of_le (handsOut.lt_of_named mem) later.length_handlers) (released h mem)
      (withheld_step handsOut orderly mem) rest
    exact ⟨rests.1, rests.2.trans (congrArg (List.filter _) apart.firings)⟩

/-- Two buttons, and an effect that takes no page steps. -/
def quietButtons : Setup := .plain [("button", [1, 2])] [("fall", .script [])] 0

/-- The buttons react when they are held and when they are seen, and one of them is pressed. -/
def pressingOne : List Step :=
  [.bind .engine (.blocks [⟨"button", [⟨"onhold.click", [⟨"text", "fall"⟩]⟩,
    ⟨"reveal.onscroll", [⟨"text", "fall"⟩]⟩]⟩]), .press 1]

/-- The pending press of a button is released with its handler, and what reveals it stays. -/
theorem unbind_releases_pressingOne :
    let s := quietButtons.start.after pressingOne
    let t := (s.step (.unbindHandler 0 0)).2
    s.named (.unbindHandler 0 0) = [0] ∧ s.page.activeTimers.map (·.handler) = [0] ∧
      t.page.activeTimers = [] ∧ t.page.activeObservers.map (·.handler) = [1, 1] ∧
      t.page = s.page.release [0] ∧ t.handlers[1]? = s.handlers[1]? ∧
      ∀ rest, (t.after rest).Released 0 ∧ (t.after rest).firingsOf 0 = s.firingsOf 0 := by
  intro s t
  have quiet : quietButtons.Quiet := Setup.quiet_of_entries (List.forall_mem_singleton.mpr rfl)
  have facts : s.named (.unbindHandler 0 0) = [0] ∧ s.page.activeTimers.map (·.handler) = [0] ∧
      t.page.activeTimers = [] ∧ t.page.activeObservers.map (·.handler) = [1, 1] := by
    decide +kernel
  have unbinds : Step.Unbinds (.unbindHandler 0 0) := trivial
  obtain ⟨page, -, others, gone⟩ := unbind_releases quiet rfl pressingOne unbinds
  obtain ⟨named, timers, timers', observers⟩ := facts
  rw [named] at page others gone
  exact ⟨named, timers, timers', observers, page, others 1 (by decide), gone 0 (by decide)⟩

end Scene

end TriggerSheet
