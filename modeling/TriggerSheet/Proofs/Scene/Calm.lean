import TriggerSheet.Proofs.Scene.Account
import TriggerSheet.Proofs.Scene.Press

/-!
# Firings of calm scenes

While no effect reacts, a firing takes place at once: it asks its query, counts itself if that finds
an element, and then only notes what its clause says. So it can be written down as an equation.

## Main definitions

* `Scene.Inert`, `Scene.Calm` — no effect reacts
* `Scene.noteAll` — the scene in which events are noted, one after the other

## Main results

* `Scene.setOff_of_inert` — what a firing does while no effect reacts
-/

namespace TriggerSheet.Scene

variable {react : Reaction} {s : Scene} {h : Nat} {handler : Handler}

/-- Effects change nothing when they react. -/
def Inert (react : Reaction) (setup : Setup) : Prop :=
  ∀ steps, setup.Takes steps → ∀ s, react s steps = s

/-- No effect reacts: none takes page steps, or the budget for them is used up. -/
def Calm (s : Scene) : Prop := s.setup.Quiet ∨ s.budget = 0

theorem inert_of_quiet {setup : Setup} (quiet : setup.Quiet) (depth : Nat) :
    Inert (reactWithin depth) setup := by
  intro steps takes t
  cases quiet steps takes
  cases depth <;> rfl

theorem Calm.inert (calm : s.Calm) : Inert s.react s.setup := by
  rcases calm with quiet | spent
  · exact inert_of_quiet quiet s.budget
  · intro steps _ t
    rw [react, spent]
    rfl

/-- The scene in which events are noted, one after the other. -/
def noteAll (s : Scene) (firing : Option Nat) (events : List Event) : Scene :=
  { s with journal := s.journal ++ events.map (⟨firing, ·, s.handlers.map (·.fired)⟩) }

theorem noteAll_nil (s : Scene) (firing : Option Nat) : s.noteAll firing [] = s := by
  simp [noteAll]

theorem noteAll_noteAll (s : Scene) (firing : Option Nat) (events events' : List Event) :
    (s.noteAll firing events).noteAll firing events' = s.noteAll firing (events ++ events') := by
  simp [noteAll]

theorem noteAll_events (s : Scene) (firing : Option Nat) (events : List Event) :
    (s.noteAll firing events).events = s.events ++ events := by
  simp [noteAll, Scene.events, Function.comp_def]

theorem report_eq_noteAll (s : Scene) (firing : Option Nat) (sink : Sink) (d : Diagnostic) :
    s.report firing sink d = s.noteAll firing [sink.event d] := by
  cases sink <;> rfl

/-- Where each item of a list makes a scene note something, the whole list does. -/
theorem foldl_eq_noteAll {α : Type} {f : Scene → α → Scene} {events : α → List Event}
    {setup : Setup} {firing : Option Nat}
    (each : ∀ x (s : Scene), s.setup = setup → f s x = s.noteAll firing (events x)) (l : List α)
    (same : s.setup = setup) : l.foldl f s = s.noteAll firing (l.flatMap events) := by
  induction l generalizing s with
  | nil => exact (s.noteAll_nil firing).symm
  | cons x l ih =>
    have rest := ih (s := s.noteAll firing (events x)) same
    rw [List.foldl_cons, each x s same, rest, noteAll_noteAll, List.flatMap_cons]

/-- An effect call only notes what it does. -/
theorem runCall_of_inert (inert : Inert react s.setup) (f : Nat) (sink : Sink)
    (found : List Target) (property : String) (call : Call) :
    runCall react f sink found property s call =
      s.noteAll (some f) (call.events s.setup.effects sink found property) := by
  unfold runCall Call.events
  cases known : s.setup.effects.lookup? call.name with
  | none => exact report_eq_noteAll ..
  | some effect =>
    by_cases accepted : acceptsEffect property call.name = true
    · simp only [accepted, if_true]
      have each (target : Target) (t : Scene) : callEffect react f call effect t target =
          t.noteAll (some f) [.effect call.name target call.argument] :=
        inert _ ⟨call.name, effect, known, target, call.argument, t.calls, rfl⟩ _
      rw [List.map_eq_flatMap]
      exact foldl_eq_noteAll (fun target t _ => each target t) found (Eq.refl s.setup)
    · simp only [accepted]
      exact report_eq_noteAll ..

/-- While no effect reacts, a firing counts itself if it finds an element, and notes what its
handler does with what it finds. -/
theorem setOff_of_inert (inert : Inert react s.setup) (known : s.handlers[h]? = some handler)
    (cause : Cause) :
    s.setOff react h cause =
      (if s.page.matching handler.selector = [] then s.opened h cause
        else (s.opened h cause).countFiring h).noteAll (some s.firings.length)
          (handler.events s.setup.effects (s.page.matching handler.selector)) := by
  have setup : (s.opened h cause).setup = s.setup := s.opened_setup h cause
  rw [setOff_eq react known, runFiring, Handler.events]
  by_cases none : s.page.matching handler.selector = []
  · simp only [none, List.isEmpty_nil, if_true]
    exact report_eq_noteAll ..
  · simp only [none, if_false, List.isEmpty_iff]
    have each (action : Action) (t : Scene) (same : t.setup = s.setup) :
        runAction react s.firings.length handler.sink (s.page.matching handler.selector) t action =
          t.noteAll (some s.firings.length) (action.events s.setup.effects handler.sink
            (s.page.matching handler.selector)) :=
      foldl_eq_noteAll (fun call u same' => same' ▸
        runCall_of_inert (same' ▸ inert) _ _ _ _ call) action.calls same
    rw [foldl_eq_noteAll each handler.actions (by exact setup)]
    exact noteAll_noteAll _ _ [_] _

end TriggerSheet.Scene
