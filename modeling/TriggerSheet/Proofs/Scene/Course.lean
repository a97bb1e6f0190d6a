import TriggerSheet.Proofs.Scene.Lead
import TriggerSheet.Scene.Play

/-!
# Steps and plays

What binding, unbinding and the steps of a play keep. A bind touches the handlers that it adds, an
unbind those that it is told to; every other step only runs callbacks and firings.

## Main definitions

* `Move.Wires`, `Move.Binds`, `Move.Unwires` — the moves of binding and unbinding
* `Scene.after` — the scene behind some steps
* `Scene.unbinds`, `Scene.unboundIn` — the handlers that a step, or some steps, unbind

## Main results

* `Scene.Chained.leads_step` — a step keeps what its parts keep
* `Scene.step_brings` — what unbinding a handler brings about holds behind the step that unbinds it
* `Scene.orderly_after` — every scene of a play is orderly
* `Scene.after_of_move` — what every move keeps holds of every scene of a play
-/

namespace TriggerSheet

/-- The moves that attend to the observation of an entry, firings apart. -/
def Move.Attends (h e : Nat) : Move → Prop
  | observe h' e' _ _ | watch h' e' _ | abandon h' e' _ | see h' e' _ => h' = h ∧ e' = e
  | _ => False

/-- The moves that listen for the presses of an entry and for their ends. -/
def Move.Hears (h e : Nat) : Move → Prop
  | listen h' _ _ c => h' = h ∧ (c = .press h e ∨ c = .release h e)
  | _ => False

/-- The moves that register what a handler needs, firings apart; no call is skipped by them. -/
def Move.Wires (h : Nat) : Move → Prop
  | record none event => event.isSkip = false
  | listen h' _ _ _ | observe h' _ _ _ | watch h' _ _ | abandon h' _ _ | see h' _ _ => h' = h
  | _ => False

/-- The moves that bind a handler, firings apart. -/
def Move.Binds (h : Nat) (m : Move) : Prop := m.Wires h ∨ ∃ handler, m = add handler

/-- The moves that give a handler its registrations while it is bound. -/
def Move.Equips (h : Nat) : Move → Prop
  | listen h' _ _ _ | observe h' _ _ _ | watch h' _ _ | abandon h' _ _ => h' = h
  | _ => False

/-- The moves that unbind a handler. -/
def Move.Unwires (h : Nat) : Move → Prop
  | mute h' _ | quit h' _ => h' = h
  | _ => False

/-- The moves that change what is handed out. -/
def Move.Rebinds : Move → Prop
  | rebind _ => True
  | _ => False

/-- To bind a handler gives no registrations to another. -/
theorem Move.Binds.eq_of_equips {m : Move} {h h' : Nat} (binds : m.Binds h')
    (equips : m.Equips h) : h' = h := by
  rcases binds with wires | ⟨handler, rfl⟩
  · cases m with
    | listen | observe | watch | abandon => exact wires.symm.trans equips
    | _ => exact equips.elim
  · exact equips.elim

theorem Move.Binds.not_unwires {m : Move} {h h' : Nat} (binds : m.Binds h') : ¬m.Unwires h := by
  intro unwires
  rcases binds with wires | ⟨handler, rfl⟩
  · cases m <;> first | exact wires.elim | exact unwires.elim
  · exact unwires

/-- While a scene is played, no handler is bound or unbound. -/
theorem Scene.Runs.not_equips {m : Move} {h : Nat} (runs : Runs m) : ¬m.Equips h := by
  intro equips
  have plays := runs.plays
  cases m <;> first | exact plays.elim | exact equips.elim

theorem Scene.Runs.not_unwires {m : Move} {h : Nat} (runs : Runs m) : ¬m.Unwires h := by
  intro unwires
  have plays := runs.plays
  cases m <;> first | exact plays.elim | exact unwires.elim

/-- The steps that unbind handlers. -/
def Step.Unbinds : Step → Prop
  | unbind _ | unbindHandler _ _ => True
  | _ => False

/-- A scene on a page with elements for some selectors, of which nothing else is special. -/
def Setup.plain (matched : List (String × List Target)) (effects : List (String × Effect))
    (budget : Nat) : Setup where
  matched
  loaded := false
  contentReady := false
  effects := .ofList effects
  options := .standard
  sink := .journal
  ignoreUnobserve := false
  syncTimers := false
  signals := []
  budget

namespace Scene

variable {Q : Scene → Scene → Prop} {react : Reaction} {s : Scene} {h : Nat}

/-! ### Binding -/

/-- Every target is wired once, as the entry of its place. -/
theorem zipIdx_eq_append {targets : List Target} {target : Target} {e : Nat}
    (found : targets[e]? = some target) :
    ∃ after, targets.zipIdx = (targets.take e).zipIdx ++ (target, e) :: after ∧
      ∀ wired ∈ (targets.take e).zipIdx ++ after, wired.2 ≠ e ∧ wired.2 < targets.length := by
  obtain ⟨lt, rfl⟩ := List.getElem?_eq_some_iff.mp found
  refine ⟨(targets.drop (e + 1)).zipIdx (e + 1), ?_, ?_⟩
  · have split : targets = targets.take e ++ targets[e] :: targets.drop (e + 1) := by simp
    have length : (targets.take e).length = e := by
      rw [List.length_take]
      omega
    conv_lhs => rw [split]
    rw [List.zipIdx_append, length, List.zipIdx_cons, Nat.zero_add]
  · -- The places before are lower, and those behind are higher.
    intro ⟨target, i⟩ mem
    rcases List.mem_append.mp mem with mem | mem
    · have := List.snd_lt_of_mem_zipIdx mem
      rw [List.length_take] at this
      dsimp only at this ⊢
      omega
    · have low := List.le_snd_of_mem_zipIdx mem
      have high := List.snd_lt_of_mem_zipIdx mem
      rw [List.length_drop] at high
      dsimp only at low high ⊢
      omega

section Wiring

variable (chained : Chained Q) (wires : Closed Q (Move.Wires h))

include wires

theorem leads_log_none (note : Note) (plain : (Event.logged note).isSkip = false) :
    s.Leads Q (s.log none note) :=
  wires.leads (m := .record none (.logged note)) plain (allows_note _ trivial id)

include chained

theorem leads_listenEach (event : String) (targets : List Target) (bound : h < s.handlers.length) :
    s.Leads Q (s.listenEach h event targets) :=
  chained.leads_foldl (fun t => h < t.handlers.length)
    (fun _ _ bound later => Nat.lt_of_lt_of_le bound later.length_handlers) targets
    (fun _ _ _ bound => wires.leads (m := .listen h _ _ (.event h)) rfl ⟨trivial, rfl, bound⟩)
    s bound

omit wires in
theorem leads_wireHold {e : Nat} (hears : Closed Q (Move.Hears h e)) (target : Target)
    (has : s.HasEntry .hold h e) : s.Leads Q (wireHold h s target e) := by
  unfold wireHold
  have pressed := hears.leads (m := .listen h (.target target) EventName.pressStart (.press h e))
    ⟨rfl, .inl rfl⟩ ⟨trivial, rfl, has⟩
  refine chained.leads_then pressed fun later => ?_
  have has' := later.hasEntry has
  have released := hears.leads (m := .listen h (.target target) EventName.pressEnd (.release h e))
    ⟨rfl, .inr rfl⟩ ⟨trivial, rfl, has'⟩
  refine chained.leads_then released fun later' => ?_
  exact hears.leads (m := .listen h (.target target) EventName.pressLeave (.release h e))
    ⟨rfl, .inr rfl⟩ ⟨trivial, rfl, later'.hasEntry has'⟩

end Wiring

section Reveal

/-- The scene in which the page has made the observer of an entry, and has told it what it tells
meanwhile. -/
def observed (react : Reaction) (threshold : Binary64) (h : Nat) (s : Scene) (target : Target)
    (e : Nat) : Scene :=
  (s.signalsFor target).foldl (fun s entered => run react s (.see h e entered))
    (s.move (.observe h e target threshold))

/-- The observation is held, unless the element entered the view by then. -/
theorem wireReveal_eq (react : Reaction) (threshold : Binary64) (h : Nat) (s : Scene)
    (target : Target) (e : Nat) :
    wireReveal react threshold h s target e =
      if (observed react threshold h s target e).isRevealed h e then
        (observed react threshold h s target e).cancel s.page.nextId
      else (observed react threshold h s target e).hold h e (some s.page.nextId) := rfl

variable (chained : Chained Q) {e : Nat} (fires : Fires Q react h (.revealed e))

include chained fires

/-- What is told while an entry is registered keeps what a callback keeps. -/
theorem leads_signals (does : ∀ entered, Closed Q (Callback.Does (.see h e entered)))
    (signals : List Bool) (observed : s.IsObserved h e) :
    s.Leads Q (signals.foldl (fun s entered => run react s (.see h e entered)) s) :=
  chained.leads_foldl (·.IsObserved h e) (fun _ _ observed later => later.isObserved observed)
    signals (fun entered _ _ observed => leads_see (does entered) fires observed) s observed

/-- Views that the page tells meanwhile come before the observation is held. -/
theorem leads_observed (does : ∀ entered, Closed Q (Callback.Does (.see h e entered)))
    (threshold : Binary64) (target : Target) :
    (s.move (.observe h e target threshold)).Leads Q (observed react threshold h s target e) := by
  obtain ⟨o, mem, _, own⟩ := s.made_of_observe h e target threshold
  exact leads_signals chained fires does _ ⟨o, mem, own⟩

variable (attends : Closed Q (Move.Attends h e))

include attends

/-- The observer that was just made is there to the end, so its number can be held or cancelled. -/
theorem leads_wireReveal (threshold : Binary64) (target : Target) (has : s.HasEntry .reveal h e) :
    s.Leads Q (wireReveal react threshold h s target e) := by
  have observes := attends.leads (m := .observe h e target threshold) ⟨rfl, rfl⟩ has
  have made := s.made_of_observe h e target threshold
  have does (entered : Bool) : Closed Q (Callback.Does (.see h e entered)) :=
    attends.mono fun m is => by
      rw [is]
      exact ⟨rfl, rfl⟩
  refine chained.leads_trans observes
    (chained.leads_then (leads_observed chained fires does threshold target) fun later => ?_)
  rw [wireReveal_eq]
  split
  · exact attends.leads (m := .abandon h e s.page.nextId) ⟨rfl, rfl⟩ (later.made made)
  · exact attends.leads (m := .watch h e s.page.nextId) ⟨rfl, rfl⟩ (later.made made)

omit fires attends in
/-- Entries that are wired one after the other keep what each of them keeps. -/
theorem leads_wireReveals (seen : ∀ e, Fires Q react h (.revealed e)) (threshold : Binary64)
    (wired : List (Target × Nat)) (attends : ∀ w ∈ wired, Closed Q (Move.Attends h w.2))
    (has : ∀ w ∈ wired, s.HasEntry .reveal h w.2) :
    s.Leads Q (wired.foldl (fun s (target, e) => wireReveal react threshold h s target e) s) :=
  chained.leads_foldl (fun t => ∀ w ∈ wired, t.HasEntry .reveal h w.2)
    (fun _ _ has later w mem => later.hasEntry (has w mem)) wired
    (fun w mem _ has =>
      leads_wireReveal chained (seen w.2) (attends w mem) threshold w.1 (has w mem)) s has

end Reveal

section Wiring

variable (chained : Chained Q) (wires : Closed Q (Move.Wires h))
  (fires : ∀ cause, Fires Q react h cause)

include chained wires fires

theorem leads_wireContentReady (selector : String) (bound : h < s.handlers.length) :
    s.Leads Q (wireContentReady react s h selector) := by
  unfold wireContentReady
  dsimp only
  have asked := wires.leads (s := s) (m := .record none .askContentReady) rfl
    (allows_note _ trivial id)
  refine chained.leads_trans asked ?_
  split
  · exact chained.leads_trans (leads_log_none wires _ rfl) (fires .alreadyPast _ bound)
  · exact wires.leads (m := .listen h _ _ (.event h)) rfl ⟨trivial, rfl, bound⟩

theorem leads_wireWindow (selector event : String) (bound : h < s.handlers.length) :
    s.Leads Q (wireWindow react s h selector event) := by
  unfold wireWindow
  dsimp only
  have listens := wires.leads (m := .listen h .global event (.event h)) rfl ⟨trivial, rfl, bound⟩
  refine chained.leads_then listens fun later => ?_
  -- A window that is loaded by now fires at once, on top of listening.
  have bound' := Nat.lt_of_lt_of_le bound later.length_handlers
  split
  · refine chained.leads_trans (wires.leads (m := .record none .askLoaded) rfl
      (allows_note _ trivial id)) ?_
    split
    · exact chained.leads_trans (leads_log_none wires _ rfl) (fires .alreadyPast _ bound')
    · exact chained.leads_refl _
  · exact chained.leads_refl _

omit fires in
/-- What a handler registers for its targets keeps what its moves and first views keep. -/
theorem leads_wireTargets (seen : ∀ e, Fires Q react h (.revealed e)) (threshold : Binary64)
    (selector : String) {activation : Activation} (needs : activation.needsTargets = true)
    (targets : List Target) (bound : h < s.handlers.length)
    (has : activation = .hold ∨ activation = .reveal →
      ∀ e < targets.length, s.HasEntry activation h e) :
    s.Leads Q (wire react threshold s h selector activation targets) := by
  have entry {target : Target} {e : Nat} (mem : (target, e) ∈ targets.zipIdx) :
      e < targets.length := by
    have := List.snd_lt_of_mem_zipIdx mem
    simpa using this
  cases activation with
  | singleClick | doubleClick | element event =>
    exact leads_listenEach chained wires _ targets bound
  | hold =>
    refine chained.leads_foldl (fun t => ∀ e < targets.length, t.HasEntry .hold h e)
      (fun _ _ has later e lt => later.hasEntry (has e lt)) targets.zipIdx ?_ s (has (.inl rfl))
    intro (target, e) mem t has
    have hears : Closed Q (Move.Hears h e) := wires.mono fun m is => by
      cases m <;> first | exact is.1 | exact is.elim
    exact leads_wireHold chained hears target (has e (entry mem))
  | reveal =>
    refine leads_wireReveals chained seen threshold targets.zipIdx (fun w _ => ?_)
      fun w mem => has (.inr rfl) w.2 (entry mem)
    exact wires.mono fun m is => by cases m <;> first | exact is.1 | exact is.elim
  | contentReady | window event => cases needs

/-- What a handler registers keeps what its moves and its firings keep. -/
theorem leads_wire (threshold : Binary64) (selector : String) (activation : Activation)
    (targets : List Target) (bound : h < s.handlers.length)
    (has : activation = .hold ∨ activation = .reveal →
      ∀ e < targets.length, s.HasEntry activation h e) :
    s.Leads Q (wire react threshold s h selector activation targets) := by
  cases activation with
  | contentReady => exact leads_wireContentReady chained wires fires selector bound
  | window event => exact leads_wireWindow chained wires fires selector event bound
  | singleClick | doubleClick | element event | hold | reveal =>
    exact leads_wireTargets chained wires (fun e => fires (.revealed e)) threshold selector rfl
      targets bound has

end Wiring

section NewHandler

variable (options : Options) (sink : Sink) (selector : String) (clause : Clause)
  (activation : Activation) (targets : List Target)

/-- The handler of a clause, as it is added. -/
def newHandler : Handler :=
  { selector
    trigger := clause.name
    activation
    actions := clause.actions
    sink
    holdThreshold := options.holdThreshold
    fired := 0
    listeners := []
    entries :=
      if activation = .hold ∨ activation = .reveal then targets.map fun _ => Entry.fresh else [] }

theorem newHandler_unfired :
    (newHandler options sink selector clause activation targets).unfired =
      newHandler options sink selector clause activation targets := by
  simp only [newHandler, Handler.unfired]
  split <;> simp

/-- A handler is added, and then it registers what it needs. -/
theorem addHandler_eq (react : Reaction) (s : Scene) :
    (addHandler react options sink s selector clause activation targets).2 =
      (wire react options.revealThreshold
        (s.move (.add (newHandler options sink selector clause activation targets)))
        s.handlers.length selector activation targets).log none
          (.boundClause selector clause.name activation targets.length) := rfl

theorem getElem?_add (s : Scene) (handler : Handler) :
    (s.move (.add handler)).handlers[s.handlers.length]? = some handler := by simp [move]

theorem hasEntry_add (s : Scene) (kind : activation = .hold ∨ activation = .reveal) {e : Nat}
    (lt : e < targets.length) :
    (s.move (.add (newHandler options sink selector clause activation targets))).HasEntry activation
      s.handlers.length e :=
  ⟨_, getElem?_add s _, rfl, by simpa [newHandler, if_pos kind] using lt⟩

end NewHandler

section Binding

variable (chained : Chained Q) {n : Nat} (binds : ∀ h, n ≤ h → Closed Q (Move.Binds h))
  (fires : ∀ h cause, n ≤ h → Fires Q react h cause) (options : Options) (sink : Sink)

include chained binds fires

theorem leads_addHandler (selector : String) (clause : Clause) (activation : Activation)
    (targets : List Target) (later : n ≤ s.handlers.length) :
    s.Leads Q (addHandler react options sink s selector clause activation targets).2 := by
  rw [addHandler_eq]
  have wires : Closed Q (Move.Wires s.handlers.length) := (binds _ later).mono fun _ => .inl
  have known := s.getElem?_add (newHandler options sink selector clause activation targets)
  have adds := (binds _ later).leads (s := s) (.inr ⟨_, rfl⟩)
    (newHandler_unfired options sink selector clause activation targets)
  refine chained.leads_trans adds (chained.leads_trans ?_ (leads_log_none wires _ rfl))
  exact leads_wire chained wires (fun cause => fires _ cause later) _ _ _ _
    (List.getElem?_eq_some_iff.mp known).1 fun kind e lt =>
      hasEntry_add options sink selector clause activation targets s kind lt

theorem leads_bindClause (selector : String) (clause : Clause) (later : n ≤ s.handlers.length) :
    s.Leads Q (bindClause react options sink s selector clause).2 := by
  unfold bindClause
  dsimp only
  have records (event : Event) (remark : event.IsRemark) (still : ¬event.IsEffect)
      (plain : event.isSkip = false) (t : Scene) : t.Leads Q (t.record none event) :=
    (binds n (Nat.le_refl n)).leads (m := .record none event) (.inl plain)
      ⟨remark, by simp, fun is => absurd is still⟩
  split
  · refine chained.leads_trans
      (records (.query selector (s.page.matching selector)) trivial id rfl s) ?_
    split
    · cases sink with
      | journal => exact records (.diagnostic _) trivial id rfl _
      | log => exact records (.logged _) trivial id rfl _
    · exact leads_addHandler chained binds fires options sink selector clause _ _ later
  · exact leads_addHandler chained binds fires options sink selector clause _ _ later

omit chained binds fires in
theorem bindClauses_cons (selector : String) (clause : Clause) (rest : List (String × Clause)) :
    (bindClauses react options sink s ((selector, clause) :: rest)).2 =
      (bindClauses react options sink
        (bindClause react options sink s selector clause).2 rest).2 := by
  simp only [bindClauses]

/-- Binding keeps what the moves and the firings of new handlers keep. -/
theorem leads_bindClauses (clauses : List (String × Clause)) (later : n ≤ s.handlers.length) :
    s.Leads Q (bindClauses react options sink s clauses).2 := by
  induction clauses generalizing s with
  | nil => exact chained.leads_refl s
  | cons first rest ih =>
    obtain ⟨selector, clause⟩ := first
    have one := leads_bindClause chained binds fires options sink selector clause later
    rw [bindClauses_cons]
    exact chained.leads_then one fun extended => ih (Nat.le_trans later extended.length_handlers)

end Binding

/-! ### Unbinding -/

theorem unfired_foldl {α : Type} (f : Scene → α → Scene)
    (each : ∀ s a, (f s a).handlers.map Handler.unfired = s.handlers.map Handler.unfired)
    (s : Scene) (l : List α) :
    (l.foldl f s).handlers.map Handler.unfired = s.handlers.map Handler.unfired := by
  induction l generalizing s with
  | nil => rfl
  | cons a l ih => exact (ih (f s a)).trans (each s a)

/-- Unbinding a handler adds and removes none. -/
theorem unbindHandler_unfired (s : Scene) (h : Nat) :
    (s.unbindHandler h).handlers.map Handler.unfired = s.handlers.map Handler.unfired := by
  unfold unbindHandler
  split
  · rfl
  next handler _ =>
    have muted := unfired_foldl cancel (fun _ _ => rfl) s handler.listeners
    exact (unfired_foldl _ (fun s e => s.clear_unfired h e) _ _).trans muted

/-- The listeners of a handler can be given up one after the other. -/
theorem leads_mutes (chained : Chained Q) (mutes : ∀ id, Closed Q (· = .mute h id))
    {handler : Handler} (known : s.handlers[h]? = some handler) :
    s.Leads Q (handler.listeners.foldl cancel s) := by
  intro orderly
  refine chained.leads_foldl
    (fun t => ∀ id ∈ handler.listeners, ∃ l ∈ t.page.listeners, l.id = id ∧ l.callback.handler = h)
    (fun t u owned later id mem => ?_) handler.listeners (fun id mem t owned => ?_) s
    (fun id mem => orderly.owned h handler id known mem) orderly
  · obtain ⟨l, there, rfl, rfl⟩ := owned id mem
    obtain ⟨l', there', same⟩ := later.page.listener there
    exact ⟨l', there', congrArg (·.id) same, congrArg (·.callback.handler) same⟩
  · exact (mutes id).leads rfl (owned id mem)

/-- So can what its entries hold. -/
theorem leads_quits (chained : Chained Q) (quits : ∀ e, Closed Q (· = .quit h e))
    (entries : List Nat) : s.Leads Q (entries.foldl (fun s e => s.clear h e) s) :=
  chained.leads_foldl (fun _ => True) (fun _ _ _ _ => trivial) entries
    (fun e _ _ _ => (quits e).leads rfl trivial) s trivial

/-- Unbinding a handler keeps what giving up its registrations keeps. -/
theorem leads_unbindHandler (chained : Chained Q)
    (unwires : h < s.handlers.length → Closed Q (Move.Unwires h)) :
    s.Leads Q (s.unbindHandler h) := by
  unfold unbindHandler
  cases known : s.handlers[h]? with
  | none => exact chained.leads_refl s
  | some handler =>
    -- The listeners are cancelled first, and then every entry gives up what it holds.
    replace unwires := unwires (List.getElem?_eq_some_iff.mp known).1
    exact chained.leads_trans
      (leads_mutes chained (fun id => unwires.mono fun m is => is ▸ rfl) known)
      (leads_quits chained (fun e => unwires.mono fun m is => is ▸ rfl) _)

/-! ### Steps -/

/-- The numbers of the handlers that a step is told to unbind. -/
def named (s : Scene) : Step → List Nat
  | .unbind b => ((s.bindings[b]?.map Binding.places).getD []).filterMap id
  | .unbindHandler b place => (s.bindings[b]?.bind (numberAt? · place)).toList
  | _ => []

/-- The handlers that a step unbinds. -/
def unbinds (s : Scene) (step : Step) : List Nat :=
  (s.named step).filter (· < s.handlers.length)

theorem unbinds_of_named {step : Step} (mem : h ∈ s.named step) : step.Unbinds := by
  cases step <;> trivial

/-- A step that unbinds handlers changes nothing else but what is handed out. -/
theorem step_unbinds (s : Scene) {step : Step} (unbinds : step.Unbinds) :
    ∃ first last, (s.step step).2 =
      ((s.named step).foldl unbindHandler (s.move (.rebind first))).move (.rebind last) := by
  cases step with
  | unbind b =>
    cases known : s.bindings[b]? with
    | none => exact ⟨s.bindings, s.bindings, by simp only [step, withBinding, named, known]; rfl⟩
    | some binding =>
      exact ⟨s.bindings, _, by simp only [step, withBinding, named, known]; rfl⟩
  | unbindHandler b place =>
    cases known : s.bindings[b]? with
    | none => exact ⟨s.bindings, s.bindings, by simp only [step, withBinding, named, known]; rfl⟩
    | some binding =>
      simp only [step, withBinding, named, known, Option.bind_some, takeOut]
      split
      · exact ⟨s.bindings, s.bindings, rfl⟩
      · refine ⟨s.bindings.set b (.parts (binding.places.set place none)), ?_⟩
        split
        next h found => exact ⟨_, by rw [found]; rfl⟩
        next none => exact ⟨_, by rw [none]; rfl⟩
  | _ => exact unbinds.elim

section Step

variable (chained : Chained Q)

include chained

/-- The scene in which a source was read. -/
def read (s : Scene) (source : Source) : Scene := source.notes.foldl (·.log none ·) s

/-- The scene in which the clauses of a source were bound. -/
def bound (s : Scene) (route : Route) (source : Source) : Scene :=
  (bindClauses (s.read source).react (s.route route).1 (s.route route).2 (s.read source)
    (source.sheet.flatMap fun b => b.clauses.map fun c => (b.selector, c))).2

omit chained in
/-- A bind reads its source, binds its clauses, and hands out the handlers. -/
theorem bind_eq (s : Scene) (route : Route) (source : Source) :
    ∃ handlers bindings, (s.bind route source).2 =
      ((s.bound route source).log none (.bound handlers)).move (.rebind bindings) := ⟨_, _, rfl⟩

omit chained in
/-- Nothing that is noted while a source is read says that a call is skipped. -/
theorem isSkip_of_notes {source : Source} {note : Note} (mem : note ∈ source.notes) :
    (Event.logged note).isSkip = false := by
  -- Groups note that they are not closed, clauses that they have no name, and braces that they
  -- are strays.
  have ofGroup (g : Group) (mem : note ∈ g.notes) : (Event.logged note).isSkip = false := by
    unfold Group.notes at mem
    split at mem <;> simp_all [Event.isSkip]
  have ofPiece (inner : Group → List Note) (piece : Piece) (mem : note ∈ piece.notes inner)
      (rest : ∀ g, note ∈ inner g → (Event.logged note).isSkip = false) :
      (Event.logged note).isSkip = false := by
    cases piece with
    | stray offset => simp_all [Piece.notes, Event.isSkip]
    | group g => exact (List.mem_append.mp mem).elim (ofGroup g) (rest g)
  cases source with
  | blocks => cases mem
  | text source =>
    rcases List.mem_append.mp mem with mem | last
    · obtain ⟨piece, -, mem⟩ := List.mem_flatMap.mp mem
      refine ofPiece _ piece mem fun g mem => ?_
      obtain ⟨piece, -, mem⟩ := List.mem_flatMap.mp mem
      refine ofPiece _ piece mem fun g mem => ?_
      unfold Clause.notes at mem
      split at mem <;> simp_all [Event.isSkip]
    · cases List.mem_singleton.mp last
      rfl

theorem leads_read (wires : Closed Q (Move.Wires h)) (source : Source) :
    s.Leads Q (s.read source) :=
  chained.leads_foldl (fun _ => True) (fun _ _ _ _ => trivial) source.notes
    (fun note mem _ _ => leads_log_none wires note (isSkip_of_notes mem)) s trivial

theorem leads_bind (binds : ∀ h, s.handlers.length ≤ h → Closed Q (Move.Binds h))
    (fires : ∀ depth h cause, s.handlers.length ≤ h → Fires Q (reactWithin depth) h cause)
    (rebinds : Closed Q Move.Rebinds) (route : Route) (source : Source) :
    s.Leads Q (s.bind route source).2 := by
  have wires : Closed Q (Move.Wires s.handlers.length) :=
    (binds _ (Nat.le_refl _)).mono fun _ => .inl
  obtain ⟨handlers, bindings, eq⟩ := s.bind_eq route source
  rw [eq]
  refine chained.leads_then (leads_read chained wires source) fun later => ?_
  have clauses := leads_bindClauses chained binds (fires (s.read source).budget) (s.route route).1
    (s.route route).2 (source.sheet.flatMap fun b => b.clauses.map fun c => (b.selector, c))
    later.length_handlers
  exact chained.leads_trans clauses (chained.leads_trans (leads_log_none wires _ rfl)
    (rebinds.leads (m := .rebind bindings) trivial trivial))

theorem leads_unbindHandlers (numbers : List Nat)
    (unwires : ∀ h ∈ numbers, h < s.handlers.length → Closed Q (Move.Unwires h)) :
    s.Leads Q (numbers.foldl unbindHandler s) := by
  -- Unbinding adds no handler, so the numbers mean the same all along.
  induction numbers generalizing s with
  | nil => exact chained.leads_refl s
  | cons h rest ih =>
    have first := leads_unbindHandler chained (unwires h (List.mem_cons_self ..))
    refine chained.leads_trans first (ih fun h' mem bound => ?_)
    have length : (s.unbindHandler h).handlers.length = s.handlers.length := by
      simpa using congrArg List.length (s.unbindHandler_unfired h)
    exact unwires h' (List.mem_cons_of_mem _ mem) (length ▸ bound)

theorem leads_unbindAll {binding : Binding}
    (unwires : ∀ h ∈ binding.places.filterMap id, h < s.handlers.length → Closed Q (Move.Unwires h))
    (rebinds : Closed Q Move.Rebinds) (b : Nat) : s.Leads Q (s.unbindAll b binding) :=
  chained.leads_trans (leads_unbindHandlers chained _ unwires)
    (rebinds.leads (m := .rebind _) trivial trivial)

theorem leads_takeOut {binding : Binding} {place : Nat}
    (unwires : ∀ h, numberAt? binding place = some h → h < s.handlers.length →
      Closed Q (Move.Unwires h))
    (rebinds : Closed Q Move.Rebinds) (b : Nat) : s.Leads Q (s.takeOut b binding place).2 := by
  unfold takeOut
  split
  · exact chained.leads_refl s
  · have parts := rebinds.leads (s := s)
      (m := .rebind (s.bindings.set b (.parts (binding.places.set place none)))) trivial trivial
    split
    next h found =>
      exact chained.leads_trans parts (leads_unbindHandler chained (unwires h found))
    next => exact parts

/-- A step keeps what its parts keep: the callbacks of a page step, a bind, a firing by hand, and
the moves of the handlers that it unbinds. -/
theorem Chained.leads_step {step : Step}
    (page : ∀ p, step = .page p → s.Leads Q (perform s.react s p).2)
    (bind : ∀ route source, step = .bind route source → s.Leads Q (s.bind route source).2)
    (manual : ∀ b place h, step = .fire b place →
      s.bindings[b]?.bind (numberAt? · place) = some h →
      ∀ depth, Fires Q (reactWithin depth) h .manual)
    (unwires : ∀ h ∈ s.unbinds step, Closed Q (Move.Unwires h))
    (rebinds : Closed Q Move.Rebinds) : s.Leads Q (s.step step).2 := by
  have keep := chained.leads_refl s
  -- Steps that only ask, and those that name nothing, leave the scene as it is.
  cases step with
  | page p => exact page p rfl
  | bind route source => exact bind route source rfl
  | fire b place =>
    simp only [step, withBinding]
    split
    next binding known =>
      split
      next h found =>
        by_cases bound : h < s.handlers.length
        · exact manual b place h rfl (by rw [known]; exact found) _ s bound
        · -- A handler that is not there does not fire.
          have idle : s.setOff s.react h .manual = s := by
            rw [setOff, List.getElem?_eq_none (Nat.le_of_not_lt bound)]
          simp only [fireByHand, idle]
          exact keep
      next => exact keep
    next => exact keep
  | unbind b =>
    simp only [step, withBinding]
    split
    next binding known =>
      refine leads_unbindAll chained (fun h mem bound => unwires h ?_) rebinds b
      simp only [unbinds, named, known, List.mem_filter]
      exact ⟨mem, by simpa using bound⟩
    next => exact keep
  | unbindHandler b place =>
    simp only [step, withBinding]
    split
    next binding known =>
      refine leads_takeOut chained (fun h found bound => unwires h ?_) rebinds b
      simp [unbinds, named, known, found, bound]
    next => exact keep
  | drop b =>
    simp only [step, withBinding]
    split
    · exact rebinds.leads (m := .rebind _) trivial trivial
    · exact keep
  | find | describeAll =>
    simp only [step, withBinding]
    split
    · split <;> exact keep
    · exact keep
  | handler | describe | unknown =>
    simp only [step, withBinding]
    split <;> exact keep
  | malformed b field =>
    cases b with
    | none => exact keep
    | some b =>
      simp only [step, withBinding]
      split <;> exact keep
  | describeEngine | engine => exact keep

end Step

section Unbinding

variable (chained : Chained Q) (unwires : ∀ h, Closed Q (Move.Unwires h)) {P R : Scene → Prop}
  (before : ∀ {s t}, s.Extends t → Q s t → P s → P t)
  (behind : ∀ {s t}, s.Extends t → Q s t → R s → R t)
  (brings : ∀ {s : Scene}, s.Orderly → P s → R (s.unbindHandler h))

include chained unwires before behind brings

/-- What unbinding a handler brings about holds on when others are unbound before and after it. -/
theorem unbindHandlers_brings {numbers : List Nat} (mem : h ∈ numbers) (orderly : s.Orderly)
    (holds : P s) : R (numbers.foldl unbindHandler s) := by
  induction numbers generalizing s with
  | nil => cases mem
  | cons h' rest ih =>
    obtain ⟨orderly', later, kept⟩ := leads_unbindHandler chained (fun _ => unwires h') orderly
    by_cases own : h = h'
    · subst own
      obtain ⟨-, later', kept'⟩ :=
        leads_unbindHandlers chained rest (fun h' _ _ => unwires h') orderly'
      exact behind later' kept' (brings orderly holds)
    · exact ih ((List.mem_cons.mp mem).resolve_left own) orderly' (before later kept holds)

/-- What unbinding a handler brings about holds behind a step that unbinds it. -/
theorem step_brings (rebinds : Closed Q Move.Rebinds) {step : Step} (mem : h ∈ s.named step)
    (orderly : s.Orderly) (holds : P s) : R (s.step step).2 := by
  obtain ⟨first, last, eq⟩ := s.step_unbinds (unbinds_of_named mem)
  have orderly' := orderly.move (m := .rebind first) trivial
  have holds' := before (s.extends_move (.rebind first))
    (rebinds (.rebind first) trivial s orderly trivial) holds
  obtain ⟨orderly'', -, -⟩ :=
    leads_unbindHandlers chained (s.named step) (fun h' _ _ => unwires h') orderly'
  rw [eq]
  exact behind (extends_move _ (.rebind last)) (rebinds (.rebind last) trivial _ orderly'' trivial)
    (unbindHandlers_brings chained unwires before behind brings mem orderly' holds')

end Unbinding

/-- A step keeps what is carried, and what binding and unbinding keep. -/
theorem Carried.step (carried : Carried Q) {step : Step}
    (binds : ∀ h, s.handlers.length ≤ h → Closed Q (Move.Binds h))
    (unwires : ∀ h ∈ s.unbinds step, Closed Q (Move.Unwires h))
    (rebinds : Closed Q Move.Rebinds) : s.Leads Q (s.step step).2 :=
  carried.leads_step (fun p _ => carried.perform (carried.admits_react s) s p)
    (fun route source _ => leads_bind carried.toChained binds
      (fun depth h cause _ => carried.fires_reactWithin depth h cause) rebinds route source)
    (fun _ _ h _ _ depth => carried.fires_reactWithin depth h .manual) unwires rebinds

/-- A step keeps what every move keeps. -/
theorem Chained.leads_step_of_closed (chained : Chained Q) (closed : Closed Q fun _ => True)
    (step : Step) : s.Leads Q (s.step step).2 :=
  (chained.carried (closed.mono fun _ _ => trivial)).step
    (fun _ _ => closed.mono fun _ _ => trivial) (fun _ _ => closed.mono fun _ _ => trivial)
    (closed.mono fun _ _ => trivial)

/-- Nothing but order is asked of a scene. -/
theorem carried_true : Carried fun _ _ => True :=
  Chained.carried ⟨fun _ => trivial, fun _ _ _ => trivial⟩ fun _ _ _ _ _ => trivial

/-- A step takes nothing away. -/
theorem Orderly.step (orderly : s.Orderly) (step : Step) :
    (s.step step).2.Orderly ∧ s.Extends (s.step step).2 := by
  have leads := carried_true.leads_step_of_closed (s := s) (fun _ _ _ _ _ => trivial) step
  exact ⟨(leads orderly).1, (leads orderly).2.1⟩

theorem Orderly.bindClause (orderly : s.Orderly) (depth : Nat) (options : Options) (sink : Sink)
    (selector : String) (clause : Clause) :
    (bindClause (reactWithin depth) options sink s selector clause).2.Orderly ∧
      s.Extends (bindClause (reactWithin depth) options sink s selector clause).2 := by
  have leads := leads_bindClause carried_true.toChained (s := s) (n := 0)
    (fun _ _ _ _ _ _ _ => trivial) (fun h cause _ => carried_true.fires_reactWithin depth h cause)
    options sink selector clause (Nat.zero_le _)
  exact ⟨(leads orderly).1, (leads orderly).2.1⟩

theorem Orderly.unbindHandler (orderly : s.Orderly) (h : Nat) :
    (s.unbindHandler h).Orderly ∧ s.Extends (s.unbindHandler h) := by
  have leads := leads_unbindHandler carried_true.toChained (s := s) (h := h)
    fun _ _ _ _ _ _ => trivial
  exact ⟨(leads orderly).1, (leads orderly).2.1⟩

/-! ### Handlers that stay -/

/-- No handler is added. -/
def Steady (s t : Scene) : Prop :=
  t.handlers.map Handler.unfired = s.handlers.map Handler.unfired

theorem chained_steady : Chained Steady :=
  ⟨fun _ => rfl, fun _ first second => second.trans first⟩

theorem closed_steady {kind : Move → Prop} (adds : ∀ m, kind m → newHandlers m = []) :
    Closed Steady kind := by
  intro m is s _ _
  rw [Steady, move_unfired, adds m is]
  exact List.append_nil _

/-- Callbacks add no handlers. -/
theorem carried_steady : Carried Steady := by
  refine chained_steady.carried (closed_steady fun m runs => ?_)
  have plays := runs.plays
  cases m <;> first | rfl | exact plays.elim

theorem closed_steady_wires (h : Nat) : Closed Steady (Move.Wires h) :=
  closed_steady fun m wires => by cases m <;> first | rfl | exact wires.elim

theorem closed_steady_rebinds : Closed Steady Move.Rebinds :=
  closed_steady fun m rebinds => by cases m <;> first | rfl | exact rebinds.elim

/-- No step but a bind adds handlers. -/
theorem leads_steady_step (step : Step) (other : ∀ route source, step ≠ .bind route source) :
    s.Leads Steady (s.step step).2 := by
  refine chained_steady.leads_step
    (fun p _ => carried_steady.perform (carried_steady.admits_react s) s p)
    (fun route source is => absurd is (other route source))
    (fun _ _ h _ _ depth => carried_steady.fires_reactWithin depth h .manual)
    (fun h _ => closed_steady fun m unwires => ?_) closed_steady_rebinds
  cases m <;> first | rfl | exact unwires.elim

theorem Steady.hasEntry {t : Scene} (steady : s.Steady t) {activation : Activation} {e : Nat}
    (has : t.HasEntry activation h e) : s.HasEntry activation h e :=
  hasEntry_of_prefix (steady ▸ List.prefix_rfl) has

/-- An entry of a handler that was not there before is one of the handler that was added. -/
theorem hasEntry_of_addHandler {depth e : Nat} (orderly : s.Orderly) (options : Options)
    (sink : Sink) (selector : String) (clause : Clause) (activation a : Activation)
    (targets : List Target) (new : s.handlers.length ≤ h) (kind : a = .hold ∨ a = .reveal)
    (has : (addHandler (reactWithin depth) options sink s selector clause activation
      targets).2.HasEntry a h e) :
    h = s.handlers.length ∧ activation = a ∧ e < targets.length := by
  rw [addHandler_eq] at has
  have known := s.getElem?_add (newHandler options sink selector clause activation targets)
  have orderly' := orderly.move
    (m := .add (newHandler options sink selector clause activation targets)) (newHandler_unfired ..)
  have wired := leads_wire chained_steady (closed_steady_wires s.handlers.length)
    (carried_steady.fires_reactWithin depth _) options.revealThreshold selector activation targets
    (List.getElem?_eq_some_iff.mp known).1
    (fun kind e lt => hasEntry_add options sink selector clause activation targets s kind lt)
    orderly'
  -- Wiring adds no handler, so the entry is there as soon as its handler is added.
  obtain ⟨handler, there, is, lt⟩ := wired.2.2.hasEntry has
  have bound := (List.getElem?_eq_some_iff.mp there).1
  rw [move, List.length_append, List.length_singleton] at bound
  obtain rfl : h = s.handlers.length := by omega
  cases known.symm.trans there
  have is : activation = a := is
  subst is
  exact ⟨rfl, rfl, by simpa [newHandler, if_pos kind] using lt⟩

/-- An entry of a handler that was not there before is made where its clause finds targets. -/
theorem bindClause_eq_of_hasEntry {depth e : Nat} (orderly : s.Orderly) (options : Options)
    (sink : Sink) (selector : String) (clause : Clause) {a : Activation}
    (new : s.handlers.length ≤ h) (kind : a = .hold ∨ a = .reveal)
    (has : (bindClause (reactWithin depth) options sink s selector clause).2.HasEntry a h e) :
    h = s.handlers.length ∧ Activation.ofName clause.name = a ∧
      e < (s.page.matching selector).length ∧
      (bindClause (reactWithin depth) options sink s selector clause).2 =
        (addHandler (reactWithin depth) options sink
          (s.record none (.query selector (s.page.matching selector))) selector clause a
          (s.page.matching selector)).2 := by
  unfold bindClause at has ⊢
  dsimp only at has ⊢
  split at has
  next needs =>
    split at has
    next none =>
      have bound := has.lt
      rw [report_eq] at bound
      -- Without targets no handler is added.
      exact absurd bound (Nat.not_lt.mpr new)
    next some =>
      have queried : (s.record none (.query selector (s.page.matching selector))).Orderly :=
        orderly.move (m := .record none (.query selector (s.page.matching selector)))
          (allows_note _ trivial id)
      obtain ⟨own, is, lt⟩ := hasEntry_of_addHandler queried options sink selector clause _ a _ new
        kind has
      exact ⟨own, is, lt, by rw [if_pos needs, if_neg some, is]⟩
  next other =>
    -- A clause that needs no targets has no entries.
    obtain ⟨_, _, lt⟩ := hasEntry_of_addHandler orderly options sink selector clause _ a [] new
      kind has
    exact absurd lt (Nat.not_lt_zero e)

/-! ### Plays -/

/-- The scene behind some steps. -/
def after (s : Scene) (steps : List Step) : Scene :=
  steps.foldl (fun s step => (s.step step).2) s

/-- The handlers that some steps unbind. -/
def unboundIn (s : Scene) : List Step → List Nat
  | [] => []
  | step :: rest => s.unbinds step ++ (s.step step).2.unboundIn rest

@[simp]
theorem after_nil : s.after [] = s := rfl

@[simp]
theorem after_cons (step : Step) (rest : List Step) :
    s.after (step :: rest) = (s.step step).2.after rest := rfl

theorem unboundIn_append (steps rest : List Step) :
    s.unboundIn (steps ++ rest) = s.unboundIn steps ++ (s.after steps).unboundIn rest := by
  induction steps generalizing s with
  | nil => rfl
  | cons step more ih =>
    rw [List.cons_append, unboundIn, unboundIn, ih, after_cons, List.append_assoc]

theorem after_append (steps rest : List Step) :
    s.after (steps ++ rest) = (s.after steps).after rest := List.foldl_append ..

/-- The scenes of a play are those behind its first steps. -/
theorem getElem?_playFrom (s : Scene) (steps : List Step) (i : Nat) :
    (s.playFrom steps)[i]?.map (·.scene) =
      if i < steps.length then some (s.after (steps.take (i + 1))) else none := by
  induction steps generalizing s i with
  | nil => simp [playFrom]
  | cons step rest ih =>
    cases i with
    | zero => simp [playFrom]
    | succ i => simp [playFrom, ih]

/-- Steps keep what every single step keeps. -/
theorem Chained.leads_after (chained : Chained Q)
    (each : ∀ (s : Scene) step, s.Leads Q (s.step step).2) (s : Scene) (steps : List Step) :
    s.Leads Q (s.after steps) := by
  induction steps generalizing s with
  | nil => exact chained.leads_refl s
  | cons step rest ih => exact chained.leads_trans (each s step) (ih _)

/-- Steps keep what moves keep, of which none gives a handler registrations once it is bound, and
none unbinds it unless a step does. -/
theorem Chained.leads_after_within (chained : Chained Q) {steps : List Step}
    (closed : Closed Q fun m =>
      (m.Equips h → s.handlers.length ≤ h) ∧ (m.Unwires h → h ∈ s.unboundIn steps)) :
    s.Leads Q (s.after steps) := by
  induction steps generalizing s with
  | nil => exact chained.leads_refl s
  | cons step rest ih =>
    have carried := chained.carried (closed.mono fun m runs =>
      ⟨fun equips => absurd equips runs.not_equips, fun unwires => absurd unwires runs.not_unwires⟩)
    refine chained.leads_then (carried.step (fun h' later => ?_) (fun h' mem => ?_) ?_)
      fun later => ih (closed.mono fun m is => ⟨fun equips => ?_, fun unwires => ?_⟩)
    · exact closed.mono fun m binds => ⟨fun equips => binds.eq_of_equips equips ▸ later,
        fun unwires => absurd unwires binds.not_unwires⟩
    · refine closed.mono fun m unwires => ?_
      cases m with
      | mute | quit =>
        exact ⟨False.elim, fun own => List.mem_append_left _ ((unwires.symm.trans own) ▸ mem)⟩
      | _ => exact unwires.elim
    · refine closed.mono fun m rebinds => ?_
      cases m <;> first | exact rebinds.elim | exact ⟨False.elim, False.elim⟩
    · exact Nat.le_trans later.length_handlers (is.1 equips)
    · exact List.mem_append_right _ (is.2 unwires)

theorem Orderly.after (orderly : s.Orderly) (steps : List Step) :
    (s.after steps).Orderly ∧ s.Extends (s.after steps) := by
  have leads := carried_true.leads_after
    (fun _ step => carried_true.leads_step_of_closed (fun _ _ _ _ _ => trivial) step) s steps
  exact ⟨(leads orderly).1, (leads orderly).2.1⟩

/-- Every scene of a play is orderly. -/
theorem orderly_after (setup : Setup) (steps : List Step) : (setup.start.after steps).Orderly :=
  ((orderly_start setup).after steps).1

/-- What a play starts with and every move keeps holds of every scene of the play. -/
theorem after_of_move {P : Scene → Prop}
    (keeps : ∀ (s : Scene) m, s.Orderly → s.Allows m → P s → P (s.move m)) (setup : Setup)
    (started : P setup.start) (steps : List Step) : P (setup.start.after steps) := by
  -- That a property holds on is a relation between scenes that every move keeps.
  have chained : Chained fun s t => P s → P t := ⟨fun _ => id, fun _ first second => second ∘ first⟩
  have closed : Closed (fun s t => P s → P t) fun _ => True := fun m _ s => keeps s m
  have each (s : Scene) (step : Step) := chained.leads_step_of_closed (s := s) closed step
  exact (chained.leads_after each setup.start steps (orderly_start setup)).2.2 started

end Scene

end TriggerSheet
