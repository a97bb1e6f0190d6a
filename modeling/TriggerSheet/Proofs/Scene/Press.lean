import TriggerSheet.Proofs.Scene.Cancel
import TriggerSheet.Proofs.Scene.Course
import TriggerSheet.Proofs.Scene.HoldRun

/-!
# Pressing and holding

While effects take no page steps, an entry of a holding handler is touched by its own callbacks
alone: a press starts its timer anew, a release gives the timer up, and a timer that elapses fires
the handler. Whatever else happens leaves listeners, timers and firings of the entry as they are.

## Main definitions

* `Setup.Quiet`, `Setup.Defers` — no effect takes page steps, and no timer runs at once
* `Scene.SamePress` — nothing about an entry of a holding handler differs
* `Scene.InState` — an entry has and holds the timer of its pending press, or none

## Main results

* `Scene.leads_keeps_runAll`, `Scene.leads_keeps_step` — what leaves an entry as it is
* `Scene.inState_press`, `Scene.inState_release`, `Scene.inState_elapse` — what its callbacks do
-/

namespace TriggerSheet

/-- No effect takes page steps. -/
def Setup.Quiet (setup : Setup) : Prop :=
  ∀ steps, setup.Takes steps → steps = []

/-- The page runs a timer with this delay later, not at once. -/
def Setup.Defers (setup : Setup) (delay : Duration) : Prop :=
  ¬(delay.nanos = 0 ∧ setup.syncTimers = true)

theorem Setup.quiet_of_entries {setup : Setup}
    (none : ∀ entry ∈ setup.effects.entries, entry.2 = .script []) : setup.Quiet := by
  rintro steps ⟨name, effect, known, target, argument, call, rfl⟩
  obtain ⟨before, after, entries, -⟩ := List.lookup_eq_some_iff.mp known
  have idle : effect = .script [] :=
    none (name, effect) (entries ▸ List.mem_append_right _ (List.mem_cons_self ..))
  rw [idle]
  rfl

instance (setup : Setup) (delay : Duration) : Decidable (setup.Defers delay) :=
  inferInstanceAs (Decidable ¬(delay.nanos = 0 ∧ setup.syncTimers = true))

/-- A callback concerns the presses of an entry. -/
def Callback.concerns (h e : Nat) (c : Callback) : Bool :=
  c = .press h e || c = .release h e || c = .elapse h e

/-- The moves that concern the presses of an entry. -/
def Move.Handles (h e : Nat) : Move → Prop
  | listen _ _ _ c => c = .press h e ∨ c = .release h e
  | start h' e' _ | clear h' e' | quit h' e' | fire h' (.held e') => h' = h ∧ e' = e
  | mute h' _ => h' = h
  | advance _ => True
  | _ => False

namespace Scene

variable {s t u : Scene} {h e : Nat} {m : Move}

theorem Extends.quiet (later : s.Extends t) (quiet : s.setup.Quiet) : t.setup.Quiet := by
  rw [later.setup]
  exact quiet

theorem Extends.defers (later : s.Extends t) {delay : Duration} (defers : s.setup.Defers delay) :
    t.setup.Defers delay := by
  rw [later.setup]
  exact defers

/-- The active timers of an entry. -/
def pendingOf (s : Scene) (h e : Nat) : List Timer := (s.timersOf h e).filter (·.active)

/-- Listeners, firings and the clock are the same for an entry of a holding handler. -/
structure SameHearing (h e : Nat) (s t : Scene) : Prop where
  listeners : t.listenersOf h e = s.listenersOf h e
  fired : t.firings.count ⟨h, .held e⟩ = s.firings.count ⟨h, .held e⟩
  now : t.page.now = s.page.now

/-- Nothing about an entry of a holding handler differs. -/
structure SamePress (h e : Nat) (s t : Scene) : Prop extends SameHearing h e s t where
  timers : t.timersOf h e = s.timersOf h e
  held : t.held? h e = s.held? h e

theorem SameHearing.refl (s : Scene) : SameHearing h e s s := ⟨rfl, rfl, rfl⟩

theorem SameHearing.trans (first : SameHearing h e s t) (second : SameHearing h e t u) :
    SameHearing h e s u :=
  ⟨second.listeners.trans first.listeners, second.fired.trans first.fired,
    second.now.trans first.now⟩

theorem SamePress.refl (s : Scene) : SamePress h e s s := ⟨.refl s, rfl, rfl⟩

theorem SamePress.trans (first : SamePress h e s t) (second : SamePress h e t u) :
    SamePress h e s u :=
  ⟨first.toSameHearing.trans second.toSameHearing, second.timers.trans first.timers,
    second.held.trans first.held⟩

/-! ### What leaves an entry as it is -/

theorem move_now (s : Scene) (m : Move) (still : ¬m.Advances) :
    (s.move m).page.now = s.page.now := by
  have cleared (h e : Nat) : (s.clear h e).page.now = s.page.now := by
    rw [clear_page]
    split <;> rfl
  cases m with
  | clear h e | quit h e => exact cleared h e
  | fire h cause =>
    rw [move_fire_page]
    cases cause with
    | revealed e => exact cleared h e
    | event | held e | alreadyPast | manual => rfl
  | advance time => exact absurd trivial still
  | _ => rfl

theorem sameHearing_move (orderly : s.Orderly) (allowed : s.Allows m)
    (listens : ∀ h' scope event c, m = .listen h' scope event c → c ≠ .press h e ∧ c ≠ .release h e)
    (mutes : ∀ id, m ≠ .mute h id) (fires : m ≠ .fire h (.held e)) (still : ¬m.Advances) :
    SameHearing h e s (s.move m) where
  listeners := by
    have none : (s.newListeners m).filter
        (fun l => l.callback = .press h e ∨ l.callback = .release h e) = [] := by
      cases m with
      | listen h' scope event c =>
        obtain ⟨press, release⟩ := listens h' scope event c rfl
        simp [newListeners, press, release]
      | _ => rfl
    rw [orderly.listenersOf_move allowed mutes, none, List.append_nil]
  fired := s.count_move m fires
  now := s.move_now m still

/-- An entry of a holding handler is not observed. -/
theorem Orderly.not_isObserved (orderly : s.Orderly) (has : s.HasEntry .hold h e) :
    ¬s.IsObserved h e := by
  intro observed
  cases (orderly.hasEntry_of_isObserved observed).eq_of_hasEntry has

section Move

variable (orderly : s.Orderly) (allowed : s.Allows m) (has : s.HasEntry .hold h e)
  (keeps : ¬m.Handles h e)

include orderly allowed has keeps

theorem timersOf_move_of_not_handles (still : ¬m.Advances) :
    (s.move m).timersOf h e = s.timersOf h e := by
  have unobserved := orderly.not_isObserved has
  have frees : ¬m.Frees h e := by
    intro frees
    cases m with
    | abandon h' e' id =>
      obtain ⟨rfl, rfl⟩ := frees
      obtain ⟨o, there, _, own⟩ := allowed
      exact unobserved ⟨o, there, own⟩
    | fire h' cause =>
      cases cause with
      | revealed e' =>
        obtain ⟨rfl, rfl⟩ := frees
        exact unobserved allowed.1
      | event | held | alreadyPast | manual => exact frees
    | clear | quit => exact keeps frees
    | _ => exact frees.elim
  have none : (s.newTimers m).filter (fun t => t.handler = h ∧ t.entry = e) = [] := by
    cases m with
    | start h' e' delay =>
      refine List.filter_eq_nil_iff.mpr fun t mem own => ?_
      cases List.mem_singleton.mp mem
      have own : h' = h ∧ e' = e := by simpa using own
      exact keeps own
    | _ => rfl
  rw [orderly.timersOf_move allowed frees still, none, List.append_nil]

theorem held?_move_of_not_handles : (s.move m).held? h e = s.held? h e := by
  have unobserved := orderly.not_isObserved has
  rw [held?, held?, s.move_entryAt? m has.lt]
  have same : (s.onEntry h e · m) = id := by
    funext entry
    -- A move that changes the entry handles it, or is for an entry that is observed.
    cases m with
    | watch h' e' id =>
      refine if_neg ?_
      rintro ⟨rfl, rfl⟩
      obtain ⟨o, there, _, own⟩ := allowed
      exact unobserved ⟨o, there, own⟩
    | start | clear | quit => exact if_neg fun hit => keeps ⟨hit.1.symm, hit.2.symm⟩
    | fire h' cause =>
      cases cause with
      | held e' => exact if_neg fun hit => keeps ⟨hit.1.symm, hit.2.symm⟩
      | revealed e' =>
        refine if_neg ?_
        rintro ⟨rfl, rfl⟩
        exact unobserved allowed.1
      | event | alreadyPast | manual => rfl
    | _ => rfl
  rw [same, Option.map_id]
  rfl

/-- A move that does not concern the presses of an entry leaves it as it is. -/
theorem samePress_move : SamePress h e s (s.move m) := by
  have still : ¬m.Advances := by
    intro advances
    cases m <;> first | exact advances.elim | exact keeps trivial
  have hearing : SameHearing h e s (s.move m) := by
    refine sameHearing_move orderly allowed (fun h' scope event c is => ?_) (fun id is => ?_)
      (fun is => ?_) still
    · subst is
      exact ⟨fun same => keeps (.inl same), fun same => keeps (.inr same)⟩
    · subst is
      exact keeps rfl
    · subst is
      exact keeps ⟨rfl, rfl⟩
  exact ⟨hearing, timersOf_move_of_not_handles orderly allowed has keeps still,
    held?_move_of_not_handles orderly allowed has keeps⟩

end Move

/-- While effects take no page steps, nothing about an entry of a holding handler differs. -/
def Keeps (h e : Nat) (s t : Scene) : Prop :=
  s.setup.Quiet → s.HasEntry .hold h e → SamePress h e s t

theorem chained_keeps (h e : Nat) : Chained (Keeps h e) where
  refl s := fun _ _ => .refl s
  trans later first second := fun quiet has =>
    (first quiet has).trans (second (later.quiet quiet) (later.hasEntry has))

theorem closed_keeps {kind : Move → Prop}
    (keeps : ∀ m, kind m → ∀ s : Scene, s.Allows m → ¬m.Handles h e) : Closed (Keeps h e) kind :=
  fun m is s orderly allowed _ has => samePress_move orderly allowed has (keeps m is s allowed)

/-- Effects that take no page steps change nothing. -/
theorem admits_of_quiet {Q : Scene → Scene → Prop} (refl : ∀ s, Q s s) (depth : Nat) :
    Admits (fun s t => s.setup.Quiet → Q s t) (reactWithin depth) := by
  intro s steps takes orderly
  obtain ⟨orderly', later, -⟩ := carried_true.admits_reactWithin depth s steps takes orderly
  refine ⟨orderly', later, fun quiet => ?_⟩
  cases quiet steps takes
  cases depth <;> exact refl s

theorem admits_keeps (depth h e : Nat) : Admits (Keeps h e) (reactWithin depth) :=
  admits_of_quiet (fun s _ => SamePress.refl s) depth

/-- A firing for another cause leaves an entry as it is. -/
theorem fires_keeps (depth : Nat) {h' : Nat} {cause : Cause}
    (other : ¬(h' = h ∧ cause = .held e)) : Fires (Keeps h e) (reactWithin depth) h' cause := by
  refine fires_of_closed (chained_keeps h e) (admits_keeps depth h e)
    (closed_keeps fun m continues s _ handles => ?_) (closed_keeps fun m begins s _ handles => ?_)
  · cases m <;> first | exact continues.elim | exact handles.elim
  · subst begins
    cases cause with
    | held e' =>
      obtain ⟨rfl, rfl⟩ := handles
      exact other ⟨rfl, rfl⟩
    | event | revealed | alreadyPast | manual => exact handles

/-- A callback that does not concern an entry leaves it as it is. -/
theorem leads_keeps_run (depth : Nat) {c : Callback} (other : c.concerns h e = false)
    (fits : s.Fits c) : s.Leads (Keeps h e) (run (reactWithin depth) s c) := by
  have apart : c ≠ .press h e ∧ c ≠ .release h e ∧ c ≠ .elapse h e := by
    simpa [Callback.concerns, and_assoc] using other
  refine leads_run (chained_keeps h e) (closed_keeps fun m does s _ handles => ?_)
    (fun cause causes => fires_keeps depth fun same => ?_) fits
  · cases c with
    | press h' e' =>
      rcases does with rfl | rfl | rfl | ⟨_, rfl⟩
      · exact handles
      · exact handles
      · exact apart.1 (by rw [handles.1, handles.2])
      · exact apart.1 (by rw [handles.1, handles.2])
    | release h' e' =>
      rcases does with rfl | rfl
      · exact handles
      · exact apart.2.1 (by rw [handles.1, handles.2])
    | see h' e' entered =>
      cases does
      exact handles
    | event | elapse => exact does.elim
  · obtain ⟨rfl, rfl⟩ := same
    cases c with
    | press h' e' =>
      cases causes
      exact apart.1 rfl
    | elapse h' e' =>
      cases causes
      exact apart.2.2 rfl
    | event | see => cases causes
    | release => exact causes

theorem leads_keeps_runAll (depth : Nat) {callbacks : List Callback}
    (others : ∀ c ∈ callbacks, c.concerns h e = false) (fits : ∀ c ∈ callbacks, s.Fits c) :
    s.Leads (Keeps h e) (runAll (reactWithin depth) s callbacks) :=
  leads_runAll (chained_keeps h e) callbacks fits
    fun c mem _ fits => leads_keeps_run depth (others c mem) fits

/-- Binding a later handler leaves an entry as it is. -/
theorem closed_keeps_binds {h' n : Nat} (later : n ≤ h') (bound : h < n) :
    Closed (Keeps h e) (Move.Binds h') := by
  refine closed_keeps fun m binds s allowed handles => ?_
  rcases binds with wires | ⟨handler, rfl⟩
  · cases m with
    | listen h'' scope event c =>
      have own : c.handler = h' := allowed.2.1.trans wires
      rcases handles with rfl | rfl <;> exact absurd own (by simp only [Callback.handler]; omega)
    | _ => first | exact wires.elim | exact handles.elim
  · exact handles

/-- A step that emits nothing, lets no time pass and does not unbind the handler of an entry leaves
the entry as it is. -/
theorem leads_keeps_step {step : Step} (bound : h < s.handlers.length)
    (emits : ∀ scope event, step ≠ .page (.emit scope event))
    (advances : ∀ time, step ≠ .page (.advance time)) (unbinds : h ∉ s.unbinds step) :
    s.Leads (Keeps h e) (s.step step).2 := by
  refine (chained_keeps h e).leads_step (fun p is => ?_) (fun route source _ => ?_)
    (fun _ _ h' _ _ depth => fires_keeps depth fun same => ?_)
    (fun h' mem => closed_keeps fun m unwires s _ => ?_)
    (closed_keeps fun m rebinds s _ => ?_)
  · have turns : Closed (Keeps h e) Move.Turns := closed_keeps fun m turns s _ handles => by
      cases m <;> first | exact turns.elim | exact handles.elim
    cases p with
    | emit scope event => exact absurd is (emits scope event)
    | advance time => exact absurd is (advances time)
    | visibility target entered =>
      refine leads_keeps_runAll _ (fun c mem => ?_) fun c mem => fits_observing mem
      obtain ⟨o, _, rfl⟩ := List.mem_map.mp mem
      rfl
    | setMatches | setLoaded | setContentReady => exact turns.leads (m := .turn ..) trivial trivial
    | pause => exact (chained_keeps h e).leads_refl s
  · refine leads_bind (chained_keeps h e) (fun h' later => closed_keeps_binds later bound)
      (fun depth h' cause later => fires_keeps depth fun same => ?_)
      (closed_keeps fun m rebinds s _ handles => ?_) route source
    · omega
    · cases m <;> first | exact rebinds.elim | exact handles.elim
  · cases same.2
  · intro handles
    have other : h' ≠ h := fun same => unbinds (same ▸ mem)
    cases m with
    | mute => exact other (unwires.symm.trans handles)
    | quit => exact other (unwires.symm.trans handles.1)
    | _ => exact unwires.elim
  · intro handles
    cases m <;> first | exact rebinds.elim | exact handles.elim

/-! ### What the callbacks of an entry do -/

variable {σ : HoldState}

/-- An entry of a holding handler has the timer of its pending press and holds it, or it has and
holds none. -/
def InState (s : Scene) (h e : Nat) : HoldState → Prop
  | .idle => s.pendingOf h e = [] ∧ s.held? h e = none
  | .pending due => ∃ t, s.pendingOf h e = [t] ∧ t.due = due ∧ s.held? h e = some t.id

theorem InState.dues (is : s.InState h e σ) : (s.pendingOf h e).map (·.due) = σ.dues := by
  cases σ with
  | idle => rw [is.1, List.map_nil, HoldState.dues]
  | pending due =>
    obtain ⟨timer, only, due, -⟩ := is
    rw [only, List.map_singleton, due, HoldState.dues]

theorem InState.of_same (is : s.InState h e σ) (pending : t.pendingOf h e = s.pendingOf h e)
    (held : t.held? h e = s.held? h e) : t.InState h e σ := by
  cases σ with
  | idle => exact ⟨pending.trans is.1, held.trans is.2⟩
  | pending due =>
    obtain ⟨timer, only, due, holds⟩ := is
    exact ⟨timer, pending.trans only, due, held.trans holds⟩

theorem SamePress.inState (same : SamePress h e s t) (is : s.InState h e σ) : t.InState h e σ :=
  is.of_same (by rw [pendingOf, pendingOf, same.timers]) same.held

theorem filter_active_without (ids : List Nat) (timers : List Timer) :
    (timers.map (Timer.without ids)).filter (·.active) =
      (timers.filter (·.active)).filter (·.id ∉ ids) := by
  induction timers with
  | nil => rfl
  | cons t rest ih =>
    rw [List.map_cons, List.filter_cons, List.filter_cons, ih]
    by_cases cancelled : t.id ∈ ids
    · by_cases active : t.active <;> simp [Timer.without, cancelled, active]
    · rw [Timer.without_of_notMem cancelled]
      by_cases active : t.active <;> simp [cancelled, active]

/-- The active timers of an entry after a move. -/
theorem pendingOf_move (s : Scene) (m : Move) (still : ¬m.Advances) (h e : Nat) :
    (s.move m).pendingOf h e = (s.pendingOf h e).filter (·.id ∉ s.cancels m) ++
      (s.newTimers m).filter fun t => t.handler = h ∧ t.entry = e := by
  have new : ((s.newTimers m).filter fun t => t.handler = h ∧ t.entry = e).filter (·.active) =
      (s.newTimers m).filter fun t => t.handler = h ∧ t.entry = e := by
    refine List.filter_eq_self.mpr fun t mem => ?_
    have mem := (List.mem_filter.mp mem).1
    cases m with
    | start h' e' delay =>
      cases List.mem_singleton.mp mem
      rfl
    | _ => cases mem
  rw [pendingOf, s.timersOf_move m still, List.filter_append, new, filter_active_without]
  rfl

theorem sameHearing_clear (orderly : s.Orderly) (has : s.HasEntry .hold h e) :
    SameHearing h e s (s.clear h e) :=
  sameHearing_move orderly (m := .clear h e) has (fun _ _ _ _ is => by cases is)
    (fun _ is => by cases is) (fun is => by cases is) id

/-- Whatever is pending is given up. -/
theorem inState_clear (is : s.InState h e σ) : (s.clear h e).InState h e .idle := by
  refine ⟨?_, s.held?_clear h e⟩
  have pending := s.pendingOf_move (.clear h e) id h e
  rw [show (s.newTimers (.clear h e)).filter _ = [] from rfl, List.append_nil] at pending
  refine pending.trans ?_
  cases σ with
  | idle => rw [is.1, List.filter_nil]
  | pending due =>
    obtain ⟨timer, only, -, holds⟩ := is
    rw [only, cancels, holds]
    simp

theorem inState_release (react : Reaction) (orderly : s.Orderly) (has : s.HasEntry .hold h e)
    (is : s.InState h e σ) :
    (run react s (.release h e)).InState h e .idle ∧
      SameHearing h e s (run react s (.release h e)) := by
  have called : s.Allows (.record none (.called (.release h e))) := (allows_note _ trivial id)
  have same := samePress_move (h := h) (e := e) orderly called has id
  have orderly' := orderly.move called
  have has' := (s.extends_move (.record none (.called (.release h e)))).hasEntry has
  exact ⟨inState_clear (same.inState is),
    same.toSameHearing.trans (sameHearing_clear orderly' has')⟩

/-- The entry of a pressed element holds its new timer. -/
theorem held?_start (has : s.HasEntry .hold h e) (delay : Duration) :
    (s.move (.start h e delay)).held? h e = some s.page.nextId := by
  obtain ⟨entry, known⟩ := has.exists_entryAt?
  rw [held?, s.move_entryAt? _ has.lt, known]
  simp [onEntry]

/-- When a timer of an entry elapses, the entry holds nothing. -/
theorem held?_fire (has : s.HasEntry .hold h e) :
    (s.move (.fire h (.held e))).held? h e = none := by
  obtain ⟨entry, known⟩ := has.exists_entryAt?
  rw [held?, s.move_entryAt? _ has.lt, known]
  simp [onEntry]

/-- The timer of a press starts at once, and its entry holds it. -/
theorem inState_start (orderly : s.Orderly) (has : s.HasEntry .hold h e)
    (is : s.InState h e .idle) (delay : Duration) :
    (s.move (.start h e delay)).InState h e (.pending (s.page.now.add delay)) ∧
      SameHearing h e s (s.move (.start h e delay)) := by
  refine ⟨⟨⟨s.page.nextId, s.page.now.add delay, h, e, true⟩, ?_, rfl, held?_start has delay⟩, ?_⟩
  · rw [s.pendingOf_move _ id, is.1]
    simp [newTimers]
  · exact sameHearing_move orderly (m := .start h e delay) ⟨has, is.2⟩
      (fun _ _ _ _ is => by cases is) (fun _ is => by cases is) (fun is => by cases is) id

/-- A press starts the timer of its entry anew, whatever is pending. -/
theorem inState_press (react : Reaction) {handler : Handler} (orderly : s.Orderly)
    (known : s.handlers[h]? = some handler) (has : s.HasEntry .hold h e)
    (defers : s.setup.Defers handler.holdThreshold)
    (is : s.InState h e σ) :
    (run react s (.press h e)).InState h e (.pending (s.page.now.add handler.holdThreshold)) ∧
      SameHearing h e s (run react s (.press h e)) := by
  have called : s.Allows (.record none (.called (.press h e))) := (allows_note _ trivial id)
  have same := samePress_move (h := h) (e := e) orderly called has id
  have orderly' := orderly.move called
  have later := s.extends_move (.record none (.called (.press h e)))
  have has' := later.hasEntry has
  have cleared := sameHearing_clear orderly' has'
  have orderly'' := orderly'.move (m := .clear h e) has'
  have later' := later.trans (extends_move _ (.clear h e))
  have starts := inState_start orderly'' (later'.hasEntry has) (inState_clear (same.inState is))
    handler.holdThreshold
  have hearing := same.toSameHearing.trans cleared
  have starting : run react s (.press h e) =
      ((s.record none (.called (.press h e))).clear h e).move
        (.start h e handler.holdThreshold) := by
    rw [run_press known]
    exact if_neg (later'.defers defers)
  rw [starting]
  have now : ((s.record none (.called (.press h e))).clear h e).page.now = s.page.now := hearing.now
  exact ⟨now ▸ starts.1, hearing.trans starts.2⟩

/-- The timer of an entry that elapses makes its handler fire once. -/
theorem inState_elapse (depth : Nat) (orderly : s.Orderly) (quiet : s.setup.Quiet)
    (has : s.HasEntry .hold h e) (none : s.pendingOf h e = []) :
    (run (reactWithin depth) s (.elapse h e)).InState h e .idle ∧
    (run (reactWithin depth) s (.elapse h e)).listenersOf h e = s.listenersOf h e ∧
    (run (reactWithin depth) s (.elapse h e)).page.now = s.page.now ∧
    (run (reactWithin depth) s (.elapse h e)).firings.count ⟨h, .held e⟩ =
      s.firings.count ⟨h, .held e⟩ + 1 := by
  have orderly' := orderly.move (m := .fire h (.held e)) has
  have later := s.extends_move (.fire h (.held e))
  have there : h < (s.enter h (.held e)).handlers.length :=
    (s.enter_handlers_length h (.held e)).symm ▸ has.lt
  have continues : Closed (Keeps h e) (Move.Continues h) :=
    closed_keeps fun m continues s _ handles => by
      cases m <;> first | exact continues.elim | exact handles.elim
  -- The firing has begun: what its effects call takes no page steps.
  obtain ⟨-, -, keeps⟩ :=
    leads_fired (chained_keeps h e) (admits_keeps depth h e) continues there orderly'
  have same : SamePress h e (s.move (.fire h (.held e)))
      (run (reactWithin depth) s (.elapse h e)) :=
    keeps (later.quiet quiet) (later.hasEntry has)
  have state : (s.move (.fire h (.held e))).InState h e .idle := by
    refine ⟨?_, held?_fire has⟩
    rw [s.pendingOf_move _ id, none]
    rfl
  refine ⟨same.inState state, ?_, same.now.trans (s.move_now _ id), ?_⟩
  · rw [same.listeners,
      orderly.listenersOf_move (m := .fire h (.held e)) has fun _ is => by cases is]
    exact List.append_nil _
  · rw [same.fired, move_fire_firings s has.lt, List.count_append]
    simp

/-! ### The callbacks that the page collects for an entry -/

theorem filter_listening (orderly : s.Orderly) (scope : Scope) (event : String) :
    (s.page.listening scope event).filter (·.concerns h e) =
      ((s.listenersOf h e).filter fun l => l.active && l.scope = scope && l.event = event).map
        (·.callback) := by
  rw [Page.listening, listenersOf, List.filter_map, List.filter_filter, List.filter_filter]
  refine congrArg _ (List.filter_congr fun l mem => ?_)
  have listened := (orderly.listeners l mem).1
  have timed : l.callback ≠ .elapse h e := fun is => by
    rw [is] at listened
    exact listened
  by_cases press : l.callback = .press h e <;> by_cases release : l.callback = .release h e <;>
    simp [Callback.concerns, press, release, timed, Bool.and_comm]

theorem filter_due (s : Scene) (time : Duration) (h e : Nat) :
    (s.page.advance time).due.filter (·.concerns h e) =
      ((s.pendingOf h e).filter fun t => t.due.nanos ≤ (s.page.now.add time).nanos).map
        fun _ => .elapse h e := by
  have concerns (t : Timer) :
      Callback.concerns h e (.elapse t.handler t.entry) = decide (t.handler = h ∧ t.entry = e) := by
    simp [Callback.concerns]
  rw [Page.due, List.filter_map, pendingOf, timersOf, List.filter_filter, List.filter_filter,
    List.filter_filter]
  have same : (s.page.timers.filter fun t =>
      Callback.concerns h e (.elapse t.handler t.entry) && (s.page.advance time).isDue t) =
      s.page.timers.filter fun t =>
        decide (t.due.nanos ≤ (s.page.now.add time).nanos) && t.active &&
          decide (t.handler = h ∧ t.entry = e) := by
    refine List.filter_congr fun t _ => ?_
    rw [concerns, Page.isDue, Bool.and_comm, Bool.and_comm (decide _) t.active]
    rfl
  refine Eq.trans (congrArg _ same) (List.map_congr_left fun t mem => ?_)
  -- The timers that are left are those of the entry.
  have own : t.handler = h ∧ t.entry = e := by
    have := (List.mem_filter.mp mem).2
    simp only [Bool.and_eq_true, decide_eq_true_eq] at this
    exact this.2
  rw [own.1, own.2]

end Scene

end TriggerSheet
