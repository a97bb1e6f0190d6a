import Mathlib.Data.List.Induction
import TriggerSheet.Proofs.Scene.Hold

/-!
# Settled entries

While effects take no page steps, every entry of a holding handler is settled between steps: it has
one pending timer and holds it, or it has none and holds none. This is so whatever the threshold of
its handler is, and whether or not the handler is unbound.

## Main definitions

* `Scene.Settled` — an entry holds just what is pending for it

## Main results

* `Scene.leads_settles_run` — callbacks leave an entry settled, but for its timer that elapses
* `Scene.leads_settles_step` — so does every step
* `Scene.settled_after` — between steps all entries are settled
-/

namespace TriggerSheet.Scene

variable {s t : Scene} {h e : Nat} {m : Move}

/-- An entry of a holding handler has one pending timer and holds it, or has and holds none. -/
def Settled (s : Scene) (h e : Nat) : Prop := ∃ σ, s.InState h e σ

/-- While effects take no page steps, a settled entry stays settled. -/
def Settles (h e : Nat) (s t : Scene) : Prop :=
  s.setup.Quiet → s.HasEntry .hold h e → s.Settled h e → t.Settled h e

theorem chained_settles (h e : Nat) : Chained (Settles h e) where
  refl _ := fun _ _ settled => settled
  trans later first second := fun quiet has settled =>
    second (later.quiet quiet) (later.hasEntry has) (first quiet has settled)

theorem Settled.same (settled : s.Settled h e) (same : SamePress h e s t) : t.Settled h e := by
  obtain ⟨σ, state⟩ := settled
  exact ⟨σ, same.inState state⟩

theorem settles_of_keeps (keeps : Keeps h e s t) : Settles h e s t :=
  fun quiet has settled => settled.same (keeps quiet has)

/-- What leaves an entry as it is leaves it settled. -/
theorem Leads.settles (leads : s.Leads (Keeps h e) t) : s.Leads (Settles h e) t := by
  intro orderly
  obtain ⟨orderly', later, keeps⟩ := leads orderly
  exact ⟨orderly', later, settles_of_keeps keeps⟩

/-! ### Callbacks -/

/-- A press leaves its entry settled, also when the page runs the timer at once. -/
theorem settled_press (depth : Nat) (orderly : s.Orderly) (quiet : s.setup.Quiet)
    (has : s.HasEntry .hold h e) (settled : s.Settled h e) :
    (run (reactWithin depth) s (.press h e)).Settled h e := by
  obtain ⟨σ, state⟩ := settled
  have ⟨handler, known, _⟩ := has
  by_cases defers : s.setup.Defers handler.holdThreshold
  · exact ⟨_, (inState_press _ orderly known has defers state).1⟩
  -- What was pending is given up before the timer is run.
  have called : s.Allows (.record none (.called (.press h e))) := allows_note _ trivial id
  have kept := samePress_move orderly called has id
  have orderly₁ := orderly.move called
  have later₁ := s.extends_move (.record none (.called (.press h e)))
  have has₁ := later₁.hasEntry has
  have idle := inState_clear (kept.inState state)
  have orderly₂ := orderly₁.move (m := .clear h e) has₁
  have later₂ := later₁.trans (extends_move _ (.clear h e))
  have noted : ((s.record none (.called (.press h e))).clear h e).Allows
      (.record none .scheduleNow) := allows_note _ trivial id
  have later := later₂.trans (extends_move _ (.record none .scheduleNow))
  have ran : run (reactWithin depth) s (.press h e) =
      run (reactWithin depth)
        (((s.record none (.called (.press h e))).clear h e).record none .scheduleNow)
        (.elapse h e) := by
    rw [run_press known]
    refine if_pos ?_
    rw [clear_setup, record_setup]
    exact not_not.mp defers
  rw [ran]
  exact ⟨_, (inState_elapse depth (orderly₂.move noted) (later.quiet quiet) (later.hasEntry has)
    idle.1).1⟩

/-- Callbacks leave an entry settled, but for the timers that elapse. -/
theorem leads_settles_run (depth : Nat) {c : Callback} (other : c ≠ .elapse h e)
    (fits : s.Fits c) : s.Leads (Settles h e) (run (reactWithin depth) s c) := by
  cases concerns : c.concerns h e with
  | false => exact (leads_keeps_run depth concerns fits).settles
  | true =>
    intro orderly
    obtain ⟨orderly', later, -⟩ :=
      carried_true.run (carried_true.admits_reactWithin depth) fits orderly
    refine ⟨orderly', later, fun quiet has settled => ?_⟩
    have own : c = .press h e ∨ c = .release h e := by
      simpa [Callback.concerns, other] using concerns
    rcases own with rfl | rfl
    · exact settled_press depth orderly quiet has settled
    · obtain ⟨σ, state⟩ := settled
      exact ⟨_, (inState_release _ orderly has state).1⟩

theorem leads_settles_emit (depth : Nat) (scope : Scope) (event : String) :
    s.Leads (Settles h e) (perform (reactWithin depth) s (.emit scope event)).2 := by
  intro orderly
  refine leads_runAll (chained_settles h e) (s.page.listening scope event)
    (fun c mem => orderly.fits_listening mem)
    (fun c mem t fits => leads_settles_run depth ?_ fits) orderly
  -- Listeners are not told of timers.
  rintro rfl
  obtain ⟨l, there, is⟩ := List.mem_map.mp mem
  have listened := (orderly.listeners l (List.mem_filter.mp there).1).1
  rw [is] at listened
  exact listened

theorem leads_settles_advance (depth : Nat) (time : Duration) :
    s.Leads (Settles h e) (perform (reactWithin depth) s (.advance time)).2 := by
  intro orderly
  obtain ⟨orderly', later, -⟩ :=
    carried_true.perform (carried_true.admits_reactWithin depth) s (.advance time) orderly
  refine ⟨orderly', later, fun quiet has ⟨σ, state⟩ => ?_⟩
  by_cases due : σ.IsDue (s.page.now.add time)
  · exact ⟨_, (state.advance_due orderly quiet has depth time due).1⟩
  · exact ⟨_, (state.advance_early orderly quiet has depth time due).1⟩

/-! ### Steps -/

/-- A handler that is unbound leaves its entries settled, and those of others. -/
theorem closed_settles_unwires (h' : Nat) : Closed (Settles h e) (Move.Unwires h') := by
  intro m unwires s orderly allowed quiet has settled
  cases m with
  | quit h' e' =>
    by_cases own : h' = h ∧ e' = e
    · obtain ⟨rfl, rfl⟩ := own
      obtain ⟨σ, state⟩ := settled
      exact ⟨_, inState_clear state⟩
    · exact settled.same (samePress_move orderly allowed has own)
  | mute h' id =>
    -- A listener is no timer.
    obtain ⟨σ, state⟩ := settled
    have timers := orderly.timersOf_move allowed (h := h) (e := e)
      (fun frees => frees.elim) fun advances => advances.elim
    refine ⟨σ, state.of_same ?_ rfl⟩
    rw [pendingOf, timers]
    simp [newTimers, pendingOf]
  | _ => exact unwires.elim

/-- Every step leaves an entry settled. -/
theorem leads_settles_step (step : Step) (bound : h < s.handlers.length) :
    s.Leads (Settles h e) (s.step step).2 := by
  by_cases emits : ∃ scope event, step = .page (.emit scope event)
  · obtain ⟨scope, event, rfl⟩ := emits
    exact leads_settles_emit s.budget scope event
  by_cases advances : ∃ time, step = .page (.advance time)
  · obtain ⟨time, rfl⟩ := advances
    exact leads_settles_advance s.budget time
  have keeps (stays : h ∉ s.unbinds step) : s.Leads (Settles h e) (s.step step).2 :=
    (leads_keeps_step bound (fun scope event is => emits ⟨scope, event, is⟩)
      (fun time is => advances ⟨time, is⟩) stays).settles
  refine (chained_settles h e).leads_step (fun p is => ?_) (fun route source is => ?_)
    (fun b place h' is _ depth => ?_) (fun h' _ => closed_settles_unwires h')
    (fun m rebinds s orderly allowed => settles_of_keeps ?_)
  · subst is
    exact keeps List.not_mem_nil
  · subst is
    exact keeps List.not_mem_nil
  · have other : ¬(h' = h ∧ Cause.manual = .held e) := fun same => nomatch same.2
    exact fun t may => (fires_keeps depth other t may).settles
  · refine closed_keeps (fun m rebinds s _ handles => ?_) m rebinds s orderly allowed
    cases m <;> first | exact rebinds.elim | exact handles.elim

/-- Between steps all entries of holding handlers are settled. -/
theorem settled_after {setup : Setup} (quiet : setup.Quiet) (steps : List Step)
    (has : (setup.start.after steps).HasEntry .hold h e) :
    (setup.start.after steps).Settled h e := by
  induction steps using List.reverseRecOn with
  | nil => exact absurd has.lt (Nat.not_lt_zero h)
  | append_singleton steps step ih =>
    obtain ⟨orderly, later⟩ := (orderly_start setup).after steps
    have started := later.quiet quiet
    rw [after_append] at has ⊢
    by_cases old : h < (setup.start.after steps).handlers.length
    · obtain ⟨-, later', settles⟩ := leads_settles_step (e := e) step old orderly
      have has' := later'.hasEntry_of_lt old has
      exact settles started has' (ih has')
    · -- Only a bind adds entries, and nothing is pending for a new one.
      have new := Nat.le_of_not_lt old
      by_cases binds : ∃ route source, step = .bind route source
      · obtain ⟨route, source, rfl⟩ := binds
        obtain ⟨_, _, _, _, _, ready⟩ := readyOn_bind orderly started route source new has
        exact ⟨_, ready.state⟩
      · obtain ⟨-, -, steady⟩ := leads_steady_step step
          (fun route source is => binds ⟨route, source, is⟩) orderly
        exact absurd (steady.hasEntry has).lt old

end TriggerSheet.Scene
