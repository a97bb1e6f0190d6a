import TriggerSheet.Scene.Play

/-!
# The press-and-hold automaton

An element that is pressed waits until the press has lasted long enough. What it waits for is
described without listeners, timers and handlers: by the presses of the element, their ends, and
the time that passes.

## Main definitions

* `HoldState` — whether a press is pending, and when it is due
* `HoldRun` — the automaton, with its clock and the number of its firings
* `HoldRun.step`, `HoldRun.run` — what steps do to it

## Main results

* `HoldRun.run_early` — nothing fires before what is pending is due
* `HoldRun.run_idle`, `HoldRun.run_once` — how often it fires without a new press
-/

namespace TriggerSheet

/-- Whether a press is pending, and when it is due. -/
inductive HoldState where
  | idle
  | pending (due : Duration)
  deriving DecidableEq, Repr

namespace HoldState

/-- The points of time that are waited for. -/
def dues : HoldState → List Duration
  | idle => []
  | pending due => [due]

/-- A press is pending that is due. -/
def IsDue (now : Duration) (σ : HoldState) : Prop := ∃ due ∈ σ.dues, due.nanos ≤ now.nanos

instance (now : Duration) (σ : HoldState) : Decidable (σ.IsDue now) :=
  inferInstanceAs (Decidable (∃ due ∈ σ.dues, due.nanos ≤ now.nanos))

end HoldState

/-- The step in which an element is pressed. -/
def Step.press (target : Target) : Step := .page (.emit (.target target) EventName.pressStart)

/-- The step in which the press of an element ends, or the element is left. -/
inductive Step.Ends (target : Target) : Step → Prop
  | released : Step.Ends target (.page (.emit (.target target) EventName.pressEnd))
  | left : Step.Ends target (.page (.emit (.target target) EventName.pressLeave))

/-- The automaton of an element that can be pressed and held. -/
structure HoldRun where
  clock : Duration
  state : HoldState
  fired : Nat
  deriving DecidableEq, Repr

namespace HoldRun

/-- An event of the element of the automaton. -/
def hear (threshold : Duration) (a : HoldRun) (event : String) : HoldRun :=
  if event = EventName.pressStart then { a with state := .pending (a.clock.add threshold) }
  else if event = EventName.pressEnd ∨ event = EventName.pressLeave then { a with state := .idle }
  else a

/-- Time passes; a press that is due fires. -/
def elapse (a : HoldRun) (time : Duration) : HoldRun :=
  let clock := a.clock.add time
  if a.state.IsDue clock then ⟨clock, .idle, a.fired + 1⟩ else { a with clock }

/-- One step. What neither concerns the element nor lets time pass changes nothing. -/
def step (target : Target) (threshold : Duration) (a : HoldRun) : Step → HoldRun
  | .page (.emit scope event) => if scope = .target target then a.hear threshold event else a
  | .page (.advance time) => a.elapse time
  | _ => a

/-- Some steps in a row. -/
def run (target : Target) (threshold : Duration) (a : HoldRun) (steps : List Step) : HoldRun :=
  steps.foldl (step target threshold) a

variable {target : Target} {threshold : Duration} {a : HoldRun}

@[simp]
theorem run_nil : a.run target threshold [] = a := rfl

@[simp]
theorem run_cons (step : Step) (rest : List Step) :
    a.run target threshold (step :: rest) =
      (a.step target threshold step).run target threshold rest := rfl

theorem run_append (steps rest : List Step) :
    a.run target threshold (steps ++ rest) =
      (a.run target threshold steps).run target threshold rest := List.foldl_append ..

theorem step_press : a.step target threshold (.press target) =
    { a with state := .pending (a.clock.add threshold) } := by
  simp [step, Step.press, hear]

theorem step_ends {step : Step} (ends : step.Ends target) :
    a.step target threshold step = { a with state := .idle } := by
  have released : EventName.pressEnd ≠ EventName.pressStart := by decide
  have left : EventName.pressLeave ≠ EventName.pressStart := by decide
  cases ends with
  | released => simp [HoldRun.step, hear, released]
  | left => simp [HoldRun.step, hear, left]

/-! ### The clock -/

theorem fired_hear (event : String) : (a.hear threshold event).fired = a.fired := by
  unfold hear
  split
  · rfl
  · split <;> rfl

theorem clock_hear (event : String) : (a.hear threshold event).clock = a.clock := by
  unfold hear
  split
  · rfl
  · split <;> rfl

theorem clock_elapse (time : Duration) : (a.elapse time).clock = a.clock.add time := by
  simp only [elapse]
  split <;> rfl

variable (target threshold) in
/-- The clock does not run backwards, and not beyond its end. -/
theorem clock_step (bounded : a.clock.nanos ≤ Duration.limit) (step : Step) :
    a.clock.nanos ≤ (a.step target threshold step).clock.nanos ∧
      (a.step target threshold step).clock.nanos ≤ Duration.limit := by
  have same (b : HoldRun) (clock : b.clock = a.clock) :
      a.clock.nanos ≤ b.clock.nanos ∧ b.clock.nanos ≤ Duration.limit := by
    rw [clock]
    exact ⟨Nat.le_refl _, bounded⟩
  unfold HoldRun.step
  split
  · split
    · exact same _ (clock_hear _)
    · exact same a rfl
  next time =>
    rw [clock_elapse]
    exact ⟨Nat.le_min.mpr ⟨bounded, Nat.le_add_right _ _⟩, Nat.min_le_left _ _⟩
  · exact same a rfl

variable (target threshold) in
theorem clock_run (bounded : a.clock.nanos ≤ Duration.limit) (steps : List Step) :
    a.clock.nanos ≤ (a.run target threshold steps).clock.nanos ∧
      (a.run target threshold steps).clock.nanos ≤ Duration.limit := by
  induction steps generalizing a with
  | nil => exact ⟨Nat.le_refl _, bounded⟩
  | cons step rest ih =>
    obtain ⟨later, bounded'⟩ := clock_step target threshold bounded step
    obtain ⟨later', bounded''⟩ := ih bounded'
    exact ⟨Nat.le_trans later later', bounded''⟩

/-! ### How often the automaton fires -/

/-- Nothing is pending that is due before a point of time. -/
def Waits (a : HoldRun) (due : Duration) : Prop := ∀ d ∈ a.state.dues, due.nanos ≤ d.nanos

theorem waits_pending (clock due : Duration) (fired : Nat) :
    (HoldRun.mk clock (.pending due) fired).Waits due := by
  intro d mem
  cases List.mem_singleton.mp mem
  exact Nat.le_refl _

/-- Before what is pending is due, a step fires nothing, and a new press is not due earlier. -/
theorem step_early {due : Duration} (waits : a.Waits due)
    (presses : due.nanos ≤ (a.clock.add threshold).nanos) (step : Step)
    (early : (a.step target threshold step).clock.nanos < due.nanos) :
    (a.step target threshold step).fired = a.fired ∧ (a.step target threshold step).Waits due := by
  unfold HoldRun.step at early ⊢
  split at early
  · split
    · refine ⟨fired_hear _, ?_⟩
      unfold hear
      split
      · intro d mem
        cases List.mem_singleton.mp mem
        exact presses
      · split
        · exact fun d mem => nomatch mem
        · exact waits
    · exact ⟨rfl, waits⟩
  next time =>
    rw [clock_elapse] at early
    have still : ¬a.state.IsDue (a.clock.add time) := by
      rintro ⟨d, mem, is⟩
      exact Nat.not_le_of_lt early (Nat.le_trans (waits d mem) is)
    simp only [elapse, if_neg still]
    exact ⟨trivial, waits⟩
  · exact ⟨rfl, waits⟩

/-- Nothing fires before what is pending is due, whatever is pressed and released meanwhile. -/
theorem run_early {due : Duration} (bounded : a.clock.nanos ≤ Duration.limit) (waits : a.Waits due)
    (presses : due.nanos ≤ (a.clock.add threshold).nanos) (steps : List Step)
    (early : (a.run target threshold steps).clock.nanos < due.nanos) :
    (a.run target threshold steps).fired = a.fired := by
  induction steps generalizing a with
  | nil => rfl
  | cons step rest ih =>
    obtain ⟨later, bounded'⟩ := clock_step target threshold bounded step
    -- The clock at the end bounds the clock in between.
    have rest_later := (clock_run target threshold bounded' rest).1
    obtain ⟨same, waits'⟩ := step_early waits presses step (Nat.lt_of_le_of_lt rest_later early)
    refine (ih bounded' waits' (Nat.le_trans presses ?_) early).trans same
    exact Nat.le_min.mpr ⟨Nat.min_le_left _ _,
      Nat.le_trans (Nat.min_le_right _ _) (Nat.add_le_add_right later _)⟩

variable (threshold a) in
/-- Without a press a step leaves nothing pending that was not, and fires what is pending at
most. -/
theorem step_unpressed {step : Step} (other : step ≠ .press target) :
    let b := a.step target threshold step
    (b.fired = a.fired ∧ (b.state = a.state ∨ b.state = .idle)) ∨
      (b.fired = a.fired + 1 ∧ a.state ≠ .idle ∧ b.state = .idle) := by
  dsimp only
  unfold HoldRun.step
  split
  next scope event =>
    split
    next own =>
      refine .inl ⟨fired_hear _, ?_⟩
      have quiet : event ≠ EventName.pressStart := fun is => other (by rw [own, is]; rfl)
      rw [hear, if_neg quiet]
      split
      · exact .inr rfl
      · exact .inl rfl
    next => exact .inl ⟨rfl, .inl rfl⟩
  next time =>
    simp only [elapse]
    split
    next due =>
      refine .inr ⟨rfl, fun idle => ?_, rfl⟩
      obtain ⟨d, mem, -⟩ := due
      rw [idle] at mem
      cases mem
    next => exact .inl ⟨rfl, .inl rfl⟩
  · exact .inl ⟨rfl, .inl rfl⟩

/-- Without a press an idle automaton never fires. -/
theorem run_idle (idle : a.state = .idle) (steps : List Step) (none : .press target ∉ steps) :
    (a.run target threshold steps).fired = a.fired := by
  induction steps generalizing a with
  | nil => rfl
  | cons step rest ih =>
    have other : step ≠ .press target := fun is => none (is ▸ List.mem_cons_self ..)
    have rest_none : .press target ∉ rest := fun mem => none (List.mem_cons_of_mem _ mem)
    rcases step_unpressed threshold a other with ⟨same, state⟩ | ⟨_, busy, _⟩
    · exact (ih (by rcases state with is | is <;> simp [is, idle]) rest_none).trans same
    · exact absurd idle busy

/-- Without another press the automaton fires at most once. -/
theorem run_once (steps : List Step) (none : .press target ∉ steps) :
    (a.run target threshold steps).fired ≤ a.fired + 1 := by
  induction steps generalizing a with
  | nil => exact Nat.le_succ _
  | cons step rest ih =>
    have other : step ≠ .press target := fun is => none (is ▸ List.mem_cons_self ..)
    have rest_none : .press target ∉ rest := fun mem => none (List.mem_cons_of_mem _ mem)
    rcases step_unpressed threshold a other with ⟨same, _⟩ | ⟨once, _, idle⟩
    · exact same ▸ ih rest_none
    · exact Nat.le_of_eq ((run_idle idle rest rest_none).trans once)

/-- Until a press is due nothing fires. -/
theorem fired_of_press (bounded : a.clock.nanos ≤ Duration.limit) {meanwhile : List Step}
    (early : (a.run target threshold (.press target :: meanwhile)).clock.nanos <
      (a.clock.add threshold).nanos) :
    (a.run target threshold (.press target :: meanwhile)).fired = a.fired := by
  rw [run_cons, step_press] at early ⊢
  exact run_early (a := { a with state := .pending (a.clock.add threshold) }) bounded
    (waits_pending _ _ _) (Nat.le_refl _) meanwhile early

/-- A press that ends before it is due never fires. -/
theorem fired_of_ends (bounded : a.clock.nanos ≤ Duration.limit) {meanwhile rest : List Step}
    {ending : Step} (ends : ending.Ends target) (none : .press target ∉ rest)
    (early : (a.run target threshold (.press target :: meanwhile)).clock.nanos <
      (a.clock.add threshold).nanos) :
    (a.run target threshold (.press target :: meanwhile ++ ending :: rest)).fired = a.fired := by
  rw [run_append, run_cons, step_ends ends, run_idle rfl rest none]
  exact fired_of_press bounded early

end HoldRun

end TriggerSheet
