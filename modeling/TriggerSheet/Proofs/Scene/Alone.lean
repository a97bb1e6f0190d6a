import TriggerSheet.Proofs.Scene.Solo
import TriggerSheet.Proofs.Scene.Tally

/-!
# A handler alone

While effects take no page steps, a handler behaves as if it were alone: of all that happens in a
scene, what it has to itself is moved by the page steps, by its own firings by hand and by its own
unbinding, and by nothing else.

## Main definitions

* `Solo.run`, `Solo.perform`, `Solo.unbind` — what callbacks, page steps and unbinding do to a
  handler that is alone
* `Touch`, `Scene.touches` — what a step means to a handler
* `Scene.SparesSolo` — a part of a run leaves a handler alone

## Main results

* `Scene.solo_run`, `Scene.solo_perform`, `Scene.solo_unbindHandler` — a handler in a scene behaves
  as if it were alone
* `Scene.solo_after` — so it does in every play
-/

namespace TriggerSheet

namespace Solo

variable (x : Solo)

/-- Whether the element of an entry was seen. -/
def isRevealed (e : Nat) : Bool := ((x.handler.bind (·.entries[e]?)).map (·.revealed)).getD false

/-- The timer of an entry starts, or runs at once. -/
def startTimer (e : Nat) (delay : Duration) : Solo :=
  if delay.nanos = 0 ∧ x.setup.syncTimers then (x.enter (.held e)).fire (.held e)
  else x.start e delay

/-- An element is pressed. -/
def press (e : Nat) : Solo :=
  match x.handler with
  | none => x
  | some a => (x.clear e).startTimer e a.holdThreshold

/-- An element enters or leaves the view. -/
def see (e : Nat) (entered : Bool) : Solo :=
  if entered && !x.isRevealed e then (x.enter (.revealed e)).fire (.revealed e) else x

/-- A callback runs. -/
def run : Callback → Solo
  | .event _ => x.fire .event
  | .press _ e => x.press e
  | .release _ e => x.clear e
  | .elapse _ e => (x.enter (.held e)).fire (.held e)
  | .see _ e entered => x.see e entered

/-- The callbacks of the active listeners for an event at a place. -/
def listening (scope : Scope) (event : String) : List Callback :=
  (x.listeners.filter fun l => l.active && l.scope = scope && l.event = event).map (·.callback)

/-- The callbacks of the observers of an element. -/
def observing (target : Target) (entered : Bool) : List Callback :=
  (x.observers.filter fun k => (k.active || x.setup.ignoreUnobserve) && k.what = target).map
    fun k => .see 0 k.entry entered

/-- The callbacks of the timers that are due when time has passed. -/
def due (time : Duration) : List Callback :=
  (x.timers.filter fun k => k.active && decide (k.what.nanos ≤ (x.page.now.add time).nanos)).map
    fun k => .elapse 0 k.entry

/-- Something happens to the page. -/
def perform : PageStep → Solo
  | .emit scope event => (x.listening scope event).foldl run x
  | .visibility target entered => (x.observing target entered).foldl run x
  | .advance time => (x.due time).foldl run (x.advance time)
  | .setMatches selector targets => { x with page := x.page.setMatches selector targets }
  | .setLoaded value => { x with page := { x.page with loaded := value } }
  | .setContentReady value => { x with page := { x.page with contentReady := value } }
  | .pause => x

/-- The handler is unbound. -/
def unbind : Solo :=
  match x.handler with
  | none => x
  | some a => (List.range a.entries.length).foldl clear x.mute

end Solo

/-- What a step can mean to a handler. -/
inductive Touch where
  | page (step : PageStep)
  | fire
  | unbind
  deriving DecidableEq, Repr

/-- Something happens to a handler that is alone. -/
def Solo.touch (x : Solo) : Touch → Solo
  | .page step => x.perform step
  | .fire => x.fire .manual
  | .unbind => x.unbind

namespace Scene

variable {s t u : Scene} {h h' e depth : Nat} {m : Move} {cause : Cause}

/-! ### Leaving a handler alone -/

/-- Fair scenes stay fair. -/
def Fairly (s t : Scene) : Prop := s.Fair → t.Fair

theorem chained_fairly : Chained Fairly := ⟨fun _ => id, fun _ first second => second ∘ first⟩

theorem closed_fairly (kind : Move → Prop) : Closed Fairly kind :=
  fun _ _ _ _ allowed fair => fair.move allowed

theorem carried_fairly : Carried Fairly := chained_fairly.carried (closed_fairly _)

theorem Fair.leads (fair : s.Fair) (leads : s.Leads Fairly t) : t.Fair :=
  (leads fair.orderly).2.2 fair

/-- A part of a run leaves a handler alone. -/
def SparesSolo (h : Nat) (s t : Scene) : Prop :=
  s.Fair → t.Fair ∧ (h < s.handlers.length → t.solo h = s.solo h)

theorem chained_sparesSolo (h : Nat) : Chained (SparesSolo h) where
  refl _ := fun fair => ⟨fair, fun _ => rfl⟩
  trans later first second := fun fair =>
    have ⟨fair', same⟩ := first fair
    have ⟨fair'', same'⟩ := second fair'
    ⟨fair'', fun bound =>
      (same' (Nat.lt_of_lt_of_le bound later.length_handlers)).trans (same bound)⟩

theorem closed_sparesSolo {kind : Move → Prop} (spares : ∀ m, kind m → m.Spares h) :
    Closed (SparesSolo h) kind :=
  fun m is _ orderly allowed fair =>
    ⟨fair.move allowed, fun bound => solo_move orderly allowed (spares m is) bound⟩

/-- A firing that sets nothing off. -/
theorem exists_fired (fair : s.Fair) (there : h < s.handlers.length) (depth : Nat)
    (cause : Cause) :
    ∃ a, (s.enter h cause).handlers[h]? = some a ∧
      Fired h cause a (s.enter h cause) ((s.enter h cause).setOff (reactWithin depth) h cause) := by
  have known := List.getElem?_eq_getElem ((s.enter_handlers_length h cause).symm ▸ there)
  have inert : Inert (reactWithin depth) (s.enter h cause).setup :=
    (s.enter_setup h cause).symm ▸ inert_of_quiet fair.quiet depth
  exact ⟨_, known, fired_of_inert inert known cause⟩

theorem Fair.tagged_enter (fair : s.Fair) (h : Nat) (cause : Cause) :
    (s.enter h cause).Tagged := (s.silent_enter h cause).tagged fair.tagged

/-- The firings of others leave a handler alone. -/
theorem fires_sparesSolo (depth : Nat) (other : h' ≠ h) (cause : Cause) :
    Fires (SparesSolo h) (reactWithin depth) h' cause := by
  intro s may orderly
  obtain ⟨orderly', later, fairly⟩ := carried_fairly.fires_reactWithin depth h' cause s may orderly
  refine ⟨orderly', later, fun fair => ⟨fairly fair, fun _ => ?_⟩⟩
  obtain ⟨a, -, fired⟩ := exists_fired fair (orderly.lt_of_mayFire may) depth cause
  exact (fired.solo_of_ne (fair.tagged_enter h' cause) other).trans
    (solo_enter_of_ne orderly other cause)

/-- The callbacks of others leave a handler alone. -/
theorem leads_sparesSolo_run (depth : Nat) {c : Callback} (other : c.handler ≠ h)
    (fits : s.Fits c) : s.Leads (SparesSolo h) (run (reactWithin depth) s c) := by
  refine leads_run (chained_sparesSolo h) (closed_sparesSolo fun m does => ?_)
    (fun cause _ => fires_sparesSolo depth other cause) fits
  cases c with
  | press h' e =>
    rcases does with rfl | rfl | rfl | ⟨_, rfl⟩
    · rfl
    · rfl
    · exact other
    · exact other
  | release h' e =>
    rcases does with rfl | rfl
    · rfl
    · exact other
  | see h' e entered =>
    cases does
    trivial
  | event | elapse => exact does.elim

/-! ### Callbacks -/

/-- A handler fires as if it were alone. -/
theorem solo_fires (fair : s.Fair) (cause : Cause) (may : s.MayFire h cause) (depth : Nat) :
    ((s.enter h cause).setOff (reactWithin depth) h cause).solo h =
      ((s.solo h).enter cause).fire cause := by
  obtain ⟨a, known, fired⟩ := exists_fired fair (fair.orderly.lt_of_mayFire may) depth cause
  rw [fired.solo (fair.tagged_enter h cause) known, solo_enter fair.orderly]

theorem isRevealed_solo (s : Scene) (h e : Nat) : (s.solo h).isRevealed e = s.isRevealed h e := by
  rw [Solo.isRevealed, isRevealed, entryAt?, solo]
  cases s.handlers[h]? with
  | none => rfl
  | some a =>
    simp only [Option.map_some, Option.bind_some, Handler.plain, List.getElem?_map, Option.map_map]
    rfl

theorem solo_startTimer (fair : s.Fair) (has : s.HasEntry .hold h e) (free : s.held? h e = none)
    (depth : Nat) (delay : Duration) :
    (startTimer (reactWithin depth) s h e delay).solo h = (s.solo h).startTimer e delay := by
  have same : (s.solo h).setup = s.setup := rfl
  rw [startTimer, Solo.startTimer, same]
  split
  · have fair' := fair.move (m := .record none .scheduleNow) (allows_note s trivial id)
    have fires := solo_fires fair' (.held e) has depth
    rw [move, solo_record s .scheduleNow id] at fires
    exact fires
  · exact solo_start fair.orderly ⟨has, free⟩

theorem solo_press (fair : s.Fair) (has : s.HasEntry .hold h e) (depth : Nat) :
    (run (reactWithin depth) s (.press h e)).solo h = (s.solo h).press e := by
  obtain ⟨a, known, -⟩ := id has
  have is : (s.solo h).handler = some a.plain := congrArg (Option.map Handler.plain) known
  have fair' := fair.move (m := .record none (.called (.press h e))) (allows_note s trivial id)
  have has' : (s.record none (.called (.press h e))).HasEntry .hold h e := has
  have cleared := (solo_clear fair'.orderly.numbered (fair'.orderly.held h e)).trans
    (congrArg (·.clear e) (s.solo_record (.called (.press h e)) id h))
  simp only [run_press known, Solo.press, is]
  exact (solo_startTimer (fair'.move (m := .clear h e) has')
    ((extends_move _ (.clear h e)).hasEntry has') (held?_clear _ h e) depth _).trans
      (congrArg (·.startTimer e a.holdThreshold) cleared)

theorem solo_release (fair : s.Fair) (react : Reaction) (h e : Nat) :
    (run react s (.release h e)).solo h = (s.solo h).clear e := by
  have fair' := fair.move (m := .record none (.called (.release h e))) (allows_note s trivial id)
  exact (solo_clear fair'.orderly.numbered (fair'.orderly.held h e)).trans
    (congrArg (·.clear e) (s.solo_record (.called (.release h e)) id h))

theorem solo_see (fair : s.Fair) (observed : s.IsObserved h e) (depth : Nat) (entered : Bool) :
    (run (reactWithin depth) s (.see h e entered)).solo h = (s.solo h).see e entered := by
  rw [Solo.see, isRevealed_solo]
  by_cases enters : entered = true ∧ s.isRevealed h e = false
  · obtain ⟨rfl, fresh⟩ := enters
    rw [run_see_first fresh, fresh]
    exact solo_fires fair (.revealed e) ⟨observed, fresh⟩ depth
  · rw [run_see_noted (by simpa using enters), if_neg (by simpa using enters)]
    exact s.solo_record _ id h

/-- A callback does to its handler what it does when the handler is alone. -/
theorem solo_run (fair : s.Fair) {c : Callback} (fits : s.Fits c) (depth : Nat) :
    (run (reactWithin depth) s c).solo c.handler = (s.solo c.handler).run c := by
  cases c with
  | event h => exact solo_fires fair .event fits depth
  | press h e => exact solo_press fair fits depth
  | release h e => exact solo_release fair _ h e
  | elapse h e => exact solo_fires fair (.held e) fits depth
  | see h e entered => exact solo_see fair fits depth entered

/-- The callbacks of a handler, without its number. -/
def ownCallbacks (h : Nat) (callbacks : List Callback) : List Callback :=
  (callbacks.filter (·.handler = h)).map (·.renumber 0)

theorem Solo.run_renumber (x : Solo) (c : Callback) (h : Nat) : x.run (c.renumber h) = x.run c := by
  cases c <;> rfl

/-- Of the callbacks that run, its own move a handler, in their order. -/
theorem solo_runAll (fair : s.Fair) (bound : h < s.handlers.length) (depth : Nat)
    {callbacks : List Callback} (fits : ∀ c ∈ callbacks, s.Fits c) :
    (runAll (reactWithin depth) s callbacks).solo h =
      (ownCallbacks h callbacks).foldl Solo.run (s.solo h) := by
  induction callbacks generalizing s with
  | nil => rfl
  | cons c rest ih =>
    have ran := carried_fairly.run (carried_fairly.admits_reactWithin depth)
      (fits c (List.mem_cons_self ..)) fair.orderly
    obtain ⟨-, later, fairly⟩ := ran
    have rests := ih (fairly fair) (Nat.lt_of_lt_of_le bound later.length_handlers)
      fun c mem => later.fits (fits c (List.mem_cons_of_mem _ mem))
    refine rests.trans ?_
    -- A callback of its own moves the handler; one of another leaves it as the next finds it.
    by_cases own : c.handler = h
    · subst own
      simp only [ownCallbacks, List.filter_cons, decide_true, if_true, List.map_cons,
        List.foldl_cons, Solo.run_renumber]
      rw [solo_run fair (fits c (List.mem_cons_self ..))]
    · have spared := leads_sparesSolo_run depth own (fits c (List.mem_cons_self ..)) fair.orderly
      rw [(spared.2.2 fair).2 bound]
      simp [ownCallbacks, own]

/-! ### Page steps -/

theorem ownCallbacks_listening (s : Scene) (h : Nat) (scope : Scope) (event : String) :
    ownCallbacks h (s.page.listening scope event) = (s.solo h).listening scope event := by
  simp only [ownCallbacks, Page.listening, Solo.listening, solo, List.filter_map, List.map_map,
    List.filter_filter]
  refine congrArg₂ List.map rfl (List.filter_congr fun l _ => ?_)
  exact Bool.and_comm _ _

theorem ownCallbacks_observing (s : Scene) (h : Nat) (target : Target) (entered : Bool) :
    ownCallbacks h (s.page.observing s.setup.ignoreUnobserve target entered) =
      (s.solo h).observing target entered := by
  simp only [ownCallbacks, Page.observing, Solo.observing, solo, List.filter_map, List.map_map,
    List.filter_filter]
  refine congrArg₂ List.map rfl (List.filter_congr fun o _ => ?_)
  exact Bool.and_comm _ _

theorem ownCallbacks_due (s : Scene) (h : Nat) (time : Duration) :
    ownCallbacks h (s.page.advance time).due = (s.solo h).due time := by
  simp only [ownCallbacks, Page.due, Solo.due, solo, List.filter_map, List.map_map,
    List.filter_filter]
  refine congrArg₂ List.map rfl (List.filter_congr fun t _ => ?_)
  exact Bool.and_comm _ _

/-- Time passes for a handler as if it were alone. -/
theorem solo_advance (s : Scene) (h : Nat) (time : Duration) :
    (s.move (.advance time)).solo h = (s.solo h).advance time := by
  have active (t : Timer) : (t.active && !(s.page.advance time).isDue t) =
      (t.active && !decide (t.due.nanos ≤ (s.page.now.add time).nanos)) := by
    cases is : t.active with
    | false => rfl
    | true =>
      simp only [Page.isDue, is, Bool.true_and]
      rfl
  ext1
  · rfl
  · rfl
  · rfl
  · rfl
  · rfl
  · simp only [solo, move, Page.dropDue, Solo.advance, List.filter_map, List.map_map, active]
    rfl
  · exact (silent_move (m := .advance time) trivial trivial).shown h

/-- A page step does to a handler what it does when the handler is alone. -/
theorem solo_perform (fair : s.Fair) (bound : h < s.handlers.length) (depth : Nat)
    (step : PageStep) :
    (perform (reactWithin depth) s step).2.solo h = (s.solo h).perform step := by
  cases step with
  | emit scope event =>
    have ran := solo_runAll fair bound depth
      fun c (mem : c ∈ s.page.listening scope event) => fair.orderly.fits_listening mem
    exact ran.trans (congrArg (List.foldl _ _) (s.ownCallbacks_listening h scope event))
  | visibility target entered =>
    have ran := solo_runAll fair bound depth
      fun c (mem : c ∈ s.page.observing s.setup.ignoreUnobserve target entered) =>
        fits_observing mem
    exact ran.trans (congrArg (List.foldl _ _) (s.ownCallbacks_observing h target entered))
  | advance time =>
    have fair' := fair.move (m := .advance time) trivial
    have ran := solo_runAll fair' bound depth
      fun c (mem : c ∈ (s.page.advance time).due) =>
        (s.extends_move (.advance time)).fits (fair.orderly.fits_due mem)
    rw [ownCallbacks_due, solo_advance] at ran
    exact ran
  | setMatches | setLoaded | setContentReady | pause => rfl

/-! ### Unbinding -/

theorem foldl_cancel_same (s : Scene) (ids : List Nat) :
    (ids.foldl cancel s).setup = s.setup ∧ (ids.foldl cancel s).handlers = s.handlers ∧
      s.Silent (ids.foldl cancel s) := by
  induction ids generalizing s with
  | nil => exact ⟨rfl, rfl, silent_of_eq rfl rfl rfl⟩
  | cons id rest ih =>
    obtain ⟨setup, handlers, silent⟩ := ih (s.cancel id)
    exact ⟨setup, handlers, (s.silent_cancel id).trans silent⟩

/-- A handler that gives its listeners up keeps none. -/
theorem solo_mutes (fair : s.Fair) {a : Handler} (known : s.handlers[h]? = some a) :
    (a.listeners.foldl cancel s).solo h = (s.solo h).mute := by
  obtain ⟨setup, handlers, silent⟩ := s.foldl_cancel_same a.listeners
  have page := s.foldl_cancel_page a.listeners
  have handler := congrArg (·[h]?) handlers
  -- The numbers are those of the listeners, and of no observer or timer.
  have owned {id : Nat} (mem : id ∈ a.listeners) := fair.orderly.owned h a id known mem
  ext1
  · exact setup
  · have plain := congrArg Page.plain page
    exact plain
  · exact congrArg (Option.map Handler.plain) handler
  · simp only [solo, page, List.filter_map, List.map_map, Solo.mute]
    refine List.map_congr_left fun l mem => ?_
    obtain ⟨there, own⟩ := List.mem_filter.mp mem
    obtain ⟨a', known', listed⟩ := fair.listed l there
    have own : l.callback.handler = h := of_decide_eq_true own
    rw [own, known] at known'
    cases known'
    simp [Listener.without, Listener.plain, listed]
  · simp only [solo, page, held?_congr handler, List.filter_map, List.map_map, Solo.mute]
    refine List.map_congr_left fun o mem => ?_
    rw [Function.comp_apply, Observer.without_of_notMem fun cancelled => ?_]
    obtain ⟨l, there, same, -⟩ := owned cancelled
    exact fair.orderly.numbered.listener_ne_observer there (List.mem_filter.mp mem).1 same
  · simp only [solo, page, held?_congr handler, List.filter_map, List.map_map, Solo.mute]
    refine List.map_congr_left fun t mem => ?_
    rw [Function.comp_apply, Timer.without_of_notMem fun cancelled => ?_]
    obtain ⟨l, there, same, -⟩ := owned cancelled
    exact fair.orderly.numbered.listener_ne_timer there (List.mem_filter.mp mem).1 same
  · exact silent.shown h

theorem solo_clears (fair : s.Fair) (h : Nat) (entries : List Nat) :
    (entries.foldl (fun s e => s.clear h e) s).solo h = entries.foldl Solo.clear (s.solo h) := by
  induction entries generalizing s with
  | nil => rfl
  | cons e rest ih =>
    have fair' : (s.clear h e).Fair := fair.move (m := .quit h e) trivial
    rw [List.foldl_cons, ih fair', solo_clear fair.orderly.numbered (fair.orderly.held h e),
      List.foldl_cons]

/-- A handler is unbound as if it were alone. -/
theorem solo_unbindHandler (fair : s.Fair) (h : Nat) :
    (s.unbindHandler h).solo h = (s.solo h).unbind := by
  cases known : s.handlers[h]? with
  | none =>
    have is : (s.solo h).handler = none := congrArg (Option.map Handler.plain) known
    simp only [unbindHandler, known, Solo.unbind, is]
  | some a =>
    have is : (s.solo h).handler = some a.plain := congrArg (Option.map Handler.plain) known
    have muted := fair.leads (leads_mutes chained_fairly (fun _ => closed_fairly _) known)
    have length : a.plain.entries.length = a.entries.length := List.length_map ..
    simp only [unbindHandler, known, Solo.unbind, is]
    rw [solo_clears muted, solo_mutes fair known, length]

theorem closed_sparesSolo_unwires (other : h' ≠ h) :
    Closed (SparesSolo h) (Move.Unwires h') :=
  closed_sparesSolo fun m unwires => by
    cases m with
    | mute | quit => exact fun same => other (unwires.symm.trans same)
    | _ => exact unwires.elim

/-- Of the handlers that are unbound, each is so as if it were alone. -/
theorem solo_unbindHandlers (fair : s.Fair) (bound : h < s.handlers.length) {numbers : List Nat}
    (nodup : numbers.Nodup) :
    (numbers.foldl unbindHandler s).solo h =
      if h ∈ numbers then (s.solo h).unbind else s.solo h := by
  induction numbers generalizing s with
  | nil => rfl
  | cons h' rest ih =>
    obtain ⟨new, nodup'⟩ := List.nodup_cons.mp nodup
    have leads := leads_unbindHandler (s := s) (h := h') chained_fairly fun _ => closed_fairly _
    have bound' := Nat.lt_of_lt_of_le bound (leads fair.orderly).2.1.length_handlers
    rw [List.foldl_cons, ih (fair.leads leads) bound' nodup']
    by_cases own : h' = h
    · subst own
      rw [if_neg new, if_pos (List.mem_cons_self ..), solo_unbindHandler fair]
    · have spared := leads_unbindHandler (chained_sparesSolo h)
        (fun _ => closed_sparesSolo_unwires own) fair.orderly
      rw [(spared.2.2 fair).2 bound]
      simp [Ne.symm own]

/-! ### Steps -/

/-- What a step means to a handler: something happens to the page, or the handler is told to fire,
or it is unbound. -/
def touches (s : Scene) (h : Nat) : Step → List Touch
  | .page .pause => []
  | .page p => [.page p]
  | .fire b place => if s.handedAt b place = some h then [.fire] else []
  | step => if h ∈ s.named step then [.unbind] else []

/-- What some steps mean to a handler. -/
def touchesIn (s : Scene) (h : Nat) (steps : List Step) : List Touch :=
  s.along (fun s step => s.touches h step) steps

/-- A later bind leaves a handler alone. -/
theorem closed_sparesSolo_binds (other : h' ≠ h) : Closed (SparesSolo h) (Move.Binds h') :=
  closed_sparesSolo fun m binds => by
    rcases binds with wires | ⟨handler, rfl⟩
    · cases m with
      | record firing event =>
        cases firing with
        | none => rfl
        | some f => exact wires.elim
      | listen | observe | watch | abandon => exact fun same => other (wires.symm.trans same)
      | see => trivial
      | _ => exact wires.elim
    · trivial

theorem closed_sparesSolo_rebinds (h : Nat) : Closed (SparesSolo h) Move.Rebinds :=
  closed_sparesSolo fun m rebinds => by cases m <;> first | exact rebinds.elim | trivial

/-- A step that means nothing to a handler leaves it alone. -/
theorem leads_sparesSolo_step {step : Step} (bound : h < s.handlers.length)
    (untouched : s.touches h step = []) : s.Leads (SparesSolo h) (s.step step).2 := by
  refine (chained_sparesSolo h).leads_step (fun p is => ?_) (fun route source _ => ?_)
    (fun b place h' is handed depth => ?_) (fun h' mem => closed_sparesSolo_unwires ?_)
    (closed_sparesSolo_rebinds h)
  · subst is
    cases p with
    | pause => exact (chained_sparesSolo h).leads_refl s
    | _ => cases untouched
  · refine leads_bind (chained_sparesSolo h) (fun h' later => closed_sparesSolo_binds ?_)
      (fun depth h' cause later => fires_sparesSolo depth ?_ cause) (closed_sparesSolo_rebinds h)
      route source
    · omega
    · omega
  · subst is
    refine fires_sparesSolo depth (fun same => ?_) .manual
    have is : s.handedAt b place = some h := same ▸ handed
    simp [touches, is] at untouched
  · rintro rfl
    have named := (List.mem_filter.mp mem).1
    cases step with
    | unbind | unbindHandler => simp [touches, named] at untouched
    | _ => cases named

theorem solo_step_unbinds (fair : s.Fair) (handsOut : s.HandsOut) (bound : h < s.handlers.length)
    {step : Step} (mem : h ∈ s.named step) : (s.step step).2.solo h = (s.solo h).unbind := by
  obtain ⟨first, last, eq⟩ := s.step_unbinds (unbinds_of_named mem)
  have fair' := fair.move (m := .rebind first) trivial
  have unbound := solo_unbindHandlers fair' bound (handsOut.nodup_named step)
  rw [if_pos mem] at unbound
  rw [eq]
  exact unbound

/-- A step moves a handler by what it means to it, as if the handler were alone. -/
theorem solo_step (fair : s.Fair) (handsOut : s.HandsOut) (bound : h < s.handlers.length)
    (step : Step) :
    (s.step step).2.solo h = (s.touches h step).foldl Solo.touch (s.solo h) := by
  -- A step means one thing to the handler at most: it unbinds it, it fires it, or it is one of the
  -- page.
  by_cases untouched : s.touches h step = []
  · rw [untouched]
    exact ((leads_sparesSolo_step bound untouched fair.orderly).2.2 fair).2 bound
  by_cases mem : h ∈ s.named step
  · have unbinds : s.touches h step = [.unbind] := by
      cases step with
      | unbind | unbindHandler => exact if_pos mem
      | _ => cases mem
    rw [solo_step_unbinds fair handsOut bound mem, unbinds]
    rfl
  cases step with
  | page p =>
    have performed := solo_perform fair bound s.budget p
    cases p with
    | pause => exact absurd rfl untouched
    | _ => exact performed
  | fire b place =>
    have is : s.handedAt b place = some h := by
      by_contra other
      exact untouched (if_neg other)
    rw [step_fire, touches, is, if_pos rfl]
    exact solo_fires fair .manual bound s.budget
  | _ => simp [touches, mem] at untouched

theorem Fair.step (fair : s.Fair) (step : Step) : (s.step step).2.Fair :=
  fair.leads (chained_fairly.leads_step_of_closed (closed_fairly _) step)

/-- In every play a handler behaves as if it were alone: what it has to itself is moved by what the
steps mean to it, and by nothing else. -/
theorem solo_after (fair : s.Fair) (handsOut : s.HandsOut) (bound : h < s.handlers.length)
    (steps : List Step) :
    (s.after steps).solo h = (s.touchesIn h steps).foldl Solo.touch (s.solo h) := by
  induction steps generalizing s with
  | nil => rfl
  | cons step rest ih =>
    have bound' := Nat.lt_of_lt_of_le bound (fair.orderly.step step).2.length_handlers
    rw [after_cons, ih (fair.step step) (handsOut.step fair.orderly step) bound',
      solo_step fair handsOut bound, ← List.foldl_append]
    rfl

end Scene

end TriggerSheet
