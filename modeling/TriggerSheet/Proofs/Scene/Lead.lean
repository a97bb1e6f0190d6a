import TriggerSheet.Proofs.Scene.Orderly
import TriggerSheet.Scene.Play

/-!
# What callbacks and reactions keep

A relation between scenes that every move keeps is kept by callbacks, by page steps and by the
reactions of effects. A relation that needs more than its moves, because it speaks of a whole
firing or of a whole advance, gives these its own proof and takes the rest from here.

## Main definitions

* `Scene.Leads` — an orderly scene comes to a later orderly one that a relation admits
* `Scene.Closed`, `Scene.Fires`, `Scene.Admits` — what moves, firings and reactions keep
* `Setup.Takes` — the page steps that effects take
* `Scene.Called`, `Scene.Carried` — a relation that callbacks keep, or callbacks and all firings

## Main results

* `Scene.fires_of_closed` — a firing keeps what its moves keep
* `Scene.leads_run` — a callback keeps what its moves and its firing keep
* `Scene.Called.perform`, `Scene.Called.admits_react` — so do page steps and reactions
-/

namespace TriggerSheet

/-- The moves with which a firing of a handler goes on. -/
def Move.Continues (h : Nat) : Move → Prop
  | record (some _) _ => True
  | count h' _ _ => h' = h
  | _ => False

/-- The moves of a callback, but for its firing. -/
def Callback.Does : Callback → Move → Prop
  | press h e, m =>
    m = .record none (.called (.press h e)) ∨ m = .record none .scheduleNow ∨ m = .clear h e ∨
      ∃ delay, m = .start h e delay
  | release h e, m => m = .record none (.called (.release h e)) ∨ m = .clear h e
  | see h e entered, m => m = .see h e entered
  | event _, _ | elapse _ _, _ => False

/-- The causes for which a callback fires its handler. -/
def Callback.Causes : Callback → Cause → Prop
  | event _, cause => cause = .event
  | press _ e, cause | elapse _ e, cause => cause = .held e
  | see _ e _, cause => cause = .revealed e
  | release _ _, _ => False

/-- The moves that neither bind handlers nor unbind them. -/
def Move.Plays : Move → Prop
  | add _ | rebind _ | listen _ _ _ _ | observe _ _ _ _ | watch _ _ _ | abandon _ _ _ | mute _ _
  | quit _ _ => False
  | _ => True

/-- The moves that turn a page without running callbacks. -/
def Move.Turns : Move → Prop
  | turn _ _ _ | spend => True
  | _ => False

/-- A registered effect takes these page steps at some call. -/
def Setup.Takes (setup : Setup) (steps : List PageStep) : Prop :=
  ∃ name effect, setup.effects.lookup? name = some effect ∧
    ∃ target argument call, effect.steps target argument call = steps

namespace Scene

variable {Q : Scene → Scene → Prop} {react : Reaction} {s t u : Scene}

/-- An orderly scene comes to a later orderly one that `Q` admits. -/
def Leads (Q : Scene → Scene → Prop) (s t : Scene) : Prop :=
  s.Orderly → t.Orderly ∧ s.Extends t ∧ Q s t

/-- Moves of a kind keep a relation. -/
def Closed (Q : Scene → Scene → Prop) (kind : Move → Prop) : Prop :=
  ∀ m, kind m → ∀ s : Scene, s.Orderly → s.Allows m → Q s (s.move m)

/-- A relation that can be followed from scene to later scene. -/
structure Chained (Q : Scene → Scene → Prop) : Prop where
  refl : ∀ s, Q s s
  trans : ∀ {s t u}, s.Extends t → Q s t → Q t u → Q s u

/-- A firing keeps a relation, together with what its cause does before. -/
def Fires (Q : Scene → Scene → Prop) (react : Reaction) (h : Nat) (cause : Cause) : Prop :=
  ∀ s : Scene, s.MayFire h cause → s.Leads Q ((s.enter h cause).setOff react h cause)

/-- The page steps of registered effects keep a relation. -/
def Admits (Q : Scene → Scene → Prop) (react : Reaction) : Prop :=
  ∀ (s : Scene) steps, s.setup.Takes steps → s.Leads Q (react s steps)

theorem Closed.mono {kind kind' : Move → Prop} (closed : Closed Q kind)
    (sub : ∀ m, kind' m → kind m) : Closed Q kind' :=
  fun m is => closed m (sub m is)

namespace Chained

variable (chained : Chained Q)

include chained

theorem leads_refl (s : Scene) : s.Leads Q s :=
  fun orderly => ⟨orderly, Extends.refl s, chained.refl s⟩

theorem leads_trans (first : s.Leads Q t) (second : t.Leads Q u) : s.Leads Q u := by
  intro orderly
  obtain ⟨orderly', later, kept⟩ := first orderly
  obtain ⟨orderly'', later', kept'⟩ := second orderly'
  exact ⟨orderly'', later.trans later', chained.trans later kept kept'⟩

/-- The second part may rely on what came with the first. -/
theorem leads_then (first : s.Leads Q t) (second : s.Extends t → t.Leads Q u) : s.Leads Q u := by
  intro orderly
  exact chained.leads_trans first (second (first orderly).2.1) orderly

theorem leads_foldl {α : Type} {step : Scene → α → Scene} (P : Scene → Prop)
    (later : ∀ s t, P s → s.Extends t → P t) (l : List α)
    (each : ∀ a ∈ l, ∀ s, P s → s.Leads Q (step s a)) (s : Scene) (holds : P s) :
    s.Leads Q (l.foldl step s) := by
  -- `P` is what each part needs; what comes later keeps it.
  induction l generalizing s with
  | nil => exact chained.leads_refl s
  | cons a l ih =>
    intro orderly
    obtain ⟨orderly', extends', kept⟩ := each a (List.mem_cons_self ..) s holds orderly
    have rest := ih (fun b mem => each b (List.mem_cons_of_mem _ mem)) (step s a)
      (later s _ holds extends')
    obtain ⟨orderly'', extends'', kept'⟩ := rest orderly'
    exact ⟨orderly'', extends'.trans extends'', chained.trans extends' kept kept'⟩

end Chained

theorem Closed.leads {kind : Move → Prop} (closed : Closed Q kind) {m : Move} (is : kind m)
    (allowed : s.Allows m) : s.Leads Q (s.move m) :=
  fun orderly => ⟨orderly.move allowed, s.extends_move m, closed m is s orderly allowed⟩

/-! ### Firings -/

section Firing

variable (chained : Chained Q) (admits : Admits Q react) {h : Nat}
  (closed : Closed Q (Move.Continues h)) {f : Nat}

include closed

/-- What a firing notes is a move. -/
theorem leads_record_own (event : Event) (remark : event.IsRemark) (bound : f < s.firings.length) :
    s.Leads Q (s.record (some f) event) :=
  closed.leads (m := .record (some f) event) trivial
    ⟨remark, fun _ eq => Option.some.inj eq ▸ bound, fun _ => by simp⟩

theorem leads_report_own (sink : Sink) (d : Diagnostic) (bound : f < s.firings.length) :
    s.Leads Q (s.report (some f) sink d) := by
  cases sink <;> exact leads_record_own closed _ trivial bound

include chained admits

theorem leads_runCall (sink : Sink) (targets : List Target) (property : String) (call : Call)
    (bound : f < s.firings.length) :
    s.Leads Q (runCall react f sink targets property s call) := by
  unfold runCall
  split
  · exact leads_report_own closed _ _ bound
  next effect known =>
    split
    · refine chained.leads_foldl
        -- The effects are those of the setup, which no target changes.
        (fun t => f < t.firings.length ∧ t.setup.effects.lookup? call.name = some effect)
        (fun s t ⟨bound, known⟩ later => ?_) targets (fun target _ t ⟨bound, known⟩ => ?_) s
        ⟨bound, known⟩
      · exact ⟨Nat.lt_of_lt_of_le bound later.firings.length_le, later.setup ▸ known⟩
      · exact chained.leads_trans
          (leads_record_own closed (.effect call.name target call.argument) trivial bound)
          (admits _ _ ⟨call.name, effect, known, target, call.argument, t.calls, rfl⟩)
    · exact leads_report_own closed _ _ bound

theorem leads_runFiring (handler : Handler) (found : List Target) (bound : f < s.firings.length) :
    s.Leads Q (s.runFiring react h handler f found) := by
  have later (s t : Scene) (bound : f < s.firings.length) (later : s.Extends t) :
      f < t.firings.length := Nat.lt_of_lt_of_le bound later.firings.length_le
  unfold runFiring
  split
  · exact leads_report_own closed _ _ bound
  · have counted := closed.leads (s := s)
      (m := .count h f (.fired handler.selector handler.trigger found.length)) rfl bound
    refine chained.leads_trans counted ?_
    refine chained.leads_foldl _ later handler.actions (fun action _ t bound => ?_) _ bound
    refine chained.leads_foldl _ later action.calls (fun call _ u bound => ?_) t bound
    exact leads_runCall chained admits closed _ _ _ _ bound

/-- A firing that has begun keeps what the moves keep with which it goes on. -/
theorem leads_fired {cause : Cause} (there : h < (s.enter h cause).handlers.length) :
    (s.move (.fire h cause)).Leads Q ((s.enter h cause).setOff react h cause) := by
  rw [setOff_eq react (List.getElem?_eq_getElem there)]
  refine leads_runFiring chained admits closed _ _ ?_
  rw [move, opened_firings _ _ _ there, List.length_append]
  exact Nat.lt_succ_self _

/-- A firing keeps what its moves keep. -/
theorem fires_of_closed {cause : Cause} (begins : Closed Q (· = .fire h cause)) :
    Fires Q react h cause := by
  intro s may orderly
  have there : h < (s.enter h cause).handlers.length :=
    (s.enter_handlers_length h cause).symm ▸ orderly.lt_of_mayFire may
  exact chained.leads_trans (begins.leads (m := .fire h cause) rfl may)
    (leads_fired chained admits closed there) orderly

end Firing

/-! ### Callbacks -/

section Callbacks

variable (chained : Chained Q)

include chained

theorem leads_press {h e : Nat} (does : Closed Q (Callback.Does (.press h e)))
    (fires : Fires Q react h (.held e)) (has : s.HasEntry .hold h e) :
    s.Leads Q (run react s (.press h e)) := by
  have ⟨handler, known, _⟩ := has
  rw [run_press known]
  have called := does.leads (s := s) (m := .record none (.called (.press h e))) (.inl rfl)
    (allows_note _ trivial id)
  refine chained.leads_trans called ?_
  have has' := (s.extends_move (.record none (.called (.press h e)))).hasEntry has
  refine chained.leads_trans (does.leads (m := .clear h e) (.inr (.inr (.inl rfl))) has') ?_
  -- The entry gives up its timer before another is started, so it holds none by then.
  have has'' := (extends_move _ (.clear h e)).hasEntry has'
  unfold startTimer
  split
  · -- The page runs the timer at once, and nothing is left to hold.
    refine chained.leads_trans (does.leads (m := .record none .scheduleNow) (.inr (.inl rfl))
      (allows_note _ trivial id)) (fires _ ?_)
    exact (extends_move _ (.record none .scheduleNow)).hasEntry has''
  · exact does.leads (m := .start h e handler.holdThreshold) (.inr (.inr (.inr ⟨_, rfl⟩)))
      ⟨has'', held?_clear _ h e⟩

theorem leads_release {h e : Nat} (does : Closed Q (Callback.Does (.release h e)))
    (has : s.HasEntry .hold h e) : s.Leads Q (run react s (.release h e)) := by
  have called := does.leads (s := s) (m := .record none (.called (.release h e))) (.inl rfl)
    (allows_note _ trivial id)
  have has' := (s.extends_move (.record none (.called (.release h e)))).hasEntry has
  exact chained.leads_trans called (does.leads (m := .clear h e) (.inr rfl) has')

omit chained in
theorem leads_see {h e : Nat} {entered : Bool} (does : Closed Q (Callback.Does (.see h e entered)))
    (fires : Fires Q react h (.revealed e)) (observed : s.IsObserved h e) :
    s.Leads Q (run react s (.see h e entered)) := by
  by_cases enters : entered = true ∧ s.isRevealed h e = false
  · obtain ⟨rfl, fresh⟩ := enters
    exact run_see_first fresh ▸ fires s ⟨observed, fresh⟩
  · -- A view that is no entering, or not the first one, is only noted.
    have told : entered = true → s.isRevealed h e = true := by simpa using enters
    rw [run_see_noted told]
    exact does.leads (m := .see h e entered) rfl ⟨observed, told⟩

/-- A callback keeps what its moves and its firing keep. -/
theorem leads_run {c : Callback} (does : Closed Q c.Does)
    (fires : ∀ cause, c.Causes cause → Fires Q react c.handler cause) (fits : s.Fits c) :
    s.Leads Q (run react s c) := by
  cases c with
  | event h => exact fires .event rfl s fits
  | press h e => exact leads_press chained does (fires _ rfl) fits
  | release h e => exact leads_release chained does fits
  | elapse h e => exact fires (.held e) rfl s fits
  | see h e entered => exact leads_see does (fires _ rfl) fits

/-- Callbacks that were collected before keep what each of them keeps. -/
theorem leads_runAll (callbacks : List Callback) (fits : ∀ c ∈ callbacks, s.Fits c)
    (run : ∀ c ∈ callbacks, ∀ t : Scene, t.Fits c → t.Leads Q (run react t c)) :
    s.Leads Q (runAll react s callbacks) :=
  chained.leads_foldl (fun t => ∀ c ∈ callbacks, t.Fits c)
    (fun _ _ fits later c mem => later.fits (fits c mem)) callbacks
    (fun c mem t fits => run c mem t (fits c mem)) s fits

end Callbacks

/-! ### Page steps -/

/-- The callbacks that the page runs concern what the scene has. -/
theorem Orderly.fits_listening (orderly : s.Orderly) {scope : Scope} {event : String}
    {c : Callback} (mem : c ∈ s.page.listening scope event) : s.Fits c := by
  obtain ⟨l, there, rfl⟩ := List.mem_map.mp mem
  exact (orderly.listeners l (List.mem_filter.mp there).1).2

theorem fits_observing {all : Bool} {target : Target} {entered : Bool} {c : Callback}
    (mem : c ∈ s.page.observing all target entered) : s.Fits c := by
  obtain ⟨o, there, rfl⟩ := List.mem_map.mp mem
  exact ⟨o, (List.mem_filter.mp there).1, rfl, rfl⟩

theorem Orderly.fits_due (orderly : s.Orderly) {time : Duration} {c : Callback}
    (mem : c ∈ (s.page.advance time).due) : s.Fits c := by
  obtain ⟨t, there, rfl⟩ := List.mem_map.mp mem
  exact orderly.timers t (List.mem_filter.mp there).1

/-- A relation that callbacks and advances keep. -/
structure Called (Q : Scene → Scene → Prop) : Prop extends Chained Q where
  does : ∀ c, Closed Q (Callback.Does c)
  turns : Closed Q Move.Turns
  calls : ∀ {react}, Admits Q react → ∀ (c : Callback) cause, c.Causes cause →
    Fires Q react c.handler cause
  advance : ∀ {react}, Admits Q react → ∀ (s : Scene) time,
    s.Leads Q (perform react s (.advance time)).2

/-- A relation that callbacks, firings and advances keep. -/
structure Carried (Q : Scene → Scene → Prop) : Prop extends Called Q where
  fires : ∀ {react}, Admits Q react → ∀ h cause, Fires Q react h cause

namespace Called

variable (called : Called Q) (admits : Admits Q react)

include called admits

theorem run {c : Callback} (fits : s.Fits c) : s.Leads Q (run react s c) :=
  leads_run called.toChained (called.does c) (called.calls admits c) fits

theorem runAll (callbacks : List Callback) (fits : ∀ c ∈ callbacks, s.Fits c) :
    s.Leads Q (runAll react s callbacks) :=
  leads_runAll called.toChained callbacks fits fun _ _ _ => called.run admits

/-- A page step keeps what callbacks keep. -/
theorem perform (s : Scene) (step : PageStep) : s.Leads Q (perform react s step).2 := by
  cases step with
  | emit scope event =>
    intro orderly
    exact called.runAll admits _ (fun c mem => orderly.fits_listening mem) orderly
  | visibility target entered => exact called.runAll admits _ fun c mem => fits_observing mem
  | advance time => exact called.advance admits s time
  | setMatches | setLoaded | setContentReady =>
    exact called.turns.leads (m := .turn ..) trivial trivial
  | pause => exact called.leads_refl s

omit admits in
theorem admits_reactWithin (depth : Nat) : Admits Q (reactWithin depth) := by
  -- The depth bounds how far reactions nest: what a page step sets off has one less.
  induction depth with
  | zero => exact fun s _ _ => called.leads_refl s
  | succ depth ih =>
    intro s steps _
    refine called.leads_foldl (fun _ => True) (fun _ _ _ _ => trivial) steps
      (fun step _ t _ => ?_) s trivial
    unfold spend
    split
    · exact called.leads_refl t
    · exact called.leads_trans (called.turns.leads (m := .spend) trivial trivial)
        (called.perform ih _ step)

omit admits in
/-- Effects keep what callbacks and advances keep. -/
theorem admits_react (s : Scene) : Admits Q s.react := called.admits_reactWithin s.budget

end Called

theorem Carried.fires_reactWithin (carried : Carried Q) (depth h : Nat) (cause : Cause) :
    Fires Q (reactWithin depth) h cause :=
  carried.fires (carried.admits_reactWithin depth) h cause

/-- A relation that the moves of callbacks and of the page keep, and the firings that callbacks set
off, is kept by callbacks and advances. -/
theorem Chained.called_of_calls (chained : Chained Q) (does : ∀ c, Closed Q (Callback.Does c))
    (turns : Closed Q Move.Turns) (advances : Closed Q Move.Advances)
    (calls : ∀ {react}, Admits Q react → ∀ (c : Callback) cause, c.Causes cause →
      Fires Q react c.handler cause) : Called Q where
  toChained := chained
  does := does
  turns := turns
  calls := calls
  advance := by
    intro react admits s time orderly
    -- Time passes for all timers first, and then the callbacks that were due run in order.
    have later := advances.leads (s := s) (m := .advance time) trivial trivial
    refine chained.leads_trans later (leads_runAll chained _ (fun c mem => ?_)
      fun c _ _ => leads_run chained (does c) (calls admits c)) orderly
    exact (s.extends_move (.advance time)).fits (orderly.fits_due mem)

/-- A relation that the moves of callbacks and of the page keep, and every firing, is carried. -/
theorem Chained.carried_of_fires (chained : Chained Q) (does : ∀ c, Closed Q (Callback.Does c))
    (turns : Closed Q Move.Turns) (advances : Closed Q Move.Advances)
    (fires : ∀ {react}, Admits Q react → ∀ h cause, Fires Q react h cause) : Carried Q where
  toCalled := chained.called_of_calls does turns advances
    fun admits c cause _ => fires admits c.handler cause
  fires := fires

/-- The moves that the page and its callbacks make. -/
def Calls (m : Move) : Prop :=
  (∃ c : Callback, c.Does m) ∨ (∃ h, m.Continues h) ∨ m.Turns ∨ m.Advances ∨
    ∃ (c : Callback) (cause : Cause), c.Causes cause ∧ m = .fire c.handler cause

/-- A relation that the moves of the page and its callbacks keep is kept by callbacks. -/
theorem Chained.called (chained : Chained Q) (closed : Closed Q Calls) : Called Q :=
  chained.called_of_calls (fun c => closed.mono fun _ is => .inl ⟨c, is⟩)
    (closed.mono fun _ is => .inr (.inr (.inl is)))
    (closed.mono fun _ is => .inr (.inr (.inr (.inl is))))
    fun admits c cause causes => fires_of_closed chained admits
      (closed.mono fun _ is => .inr (.inl ⟨c.handler, is⟩))
      (closed.mono fun _ is => .inr (.inr (.inr (.inr ⟨c, cause, causes, is⟩))))

/-- The moves that run while a scene is played, once its handlers are bound. -/
def Runs (m : Move) : Prop :=
  (∃ c : Callback, c.Does m) ∨ (∃ h, m.Continues h) ∨ m.Turns ∨ m.Advances ∨
    ∃ h cause, m = .fire h cause

theorem Runs.plays {m : Move} (runs : Runs m) : m.Plays := by
  rcases runs with ⟨c, does⟩ | ⟨_, is⟩ | is | is | ⟨_, _, rfl⟩
  · cases c with
    | press => rcases does with rfl | rfl | rfl | ⟨_, rfl⟩ <;> trivial
    | release => rcases does with rfl | rfl <;> trivial
    | see =>
      cases does
      trivial
    | event | elapse => exact does.elim
  · cases m <;> trivial
  · cases m <;> trivial
  · cases m <;> trivial
  · trivial

/-- A relation that moves keep is carried. -/
theorem Chained.carried (chained : Chained Q) (closed : Closed Q Runs) : Carried Q :=
  chained.carried_of_fires (fun c => closed.mono fun _ is => .inl ⟨c, is⟩)
    (closed.mono fun _ is => .inr (.inr (.inl is)))
    (closed.mono fun _ is => .inr (.inr (.inr (.inl is))))
    fun admits h cause => fires_of_closed chained admits
      (closed.mono fun _ is => .inr (.inl ⟨h, is⟩))
      (closed.mono fun _ is => .inr (.inr (.inr (.inr ⟨h, cause, is⟩))))

end Scene

end TriggerSheet
