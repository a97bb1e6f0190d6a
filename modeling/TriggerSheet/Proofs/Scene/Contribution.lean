import TriggerSheet.Proofs.Scene.Bound
import TriggerSheet.Proofs.Scene.Gain

/-!
# What a bind adds

While no effect reacts, a bind only adds to a scene. Each clause of its source contributes in its
turn: a handler with what it gains from its activation, or the report that its selector matches
nothing. No clause is left out, and none contributes twice.

## Main definitions

* `Contribution`, `contribution` — what a clause adds to a scene
* `contributions` — what the clauses of a bind add, one after the other
* `Contribution.Accounts` — a contribution is what the activation of its clause asks for

## Main results

* `Scene.contributes_bindClause` — binding a clause adds its contribution
* `accounts_contribution` — a contribution is what the activation asks for
* `Scene.bind_accounts` — a bind adds what each of its clauses asks for, in order
-/

namespace TriggerSheet

/-- What a clause adds to a scene: its gain, and a handler with the number that is next. -/
structure Contribution extends Gain where
  number : Nat
  handler : Option Handler

/-- The elements that a clause finds when it is bound, if it looks for any. -/
def Activation.targetsOn (a : Activation) (p : Page) (selector : String) : List Target :=
  if a.needsTargets then p.matching selector else []

/-- What a clause adds to a scene on a page, where `h` is the next number of a handler. -/
def contribution (setup : Setup) (options : Options) (sink : Sink) (p : Page) (h : Nat) :
    String × Clause → Contribution
  | (selector, clause) =>
    let a := Activation.ofName clause.name
    let targets := a.targetsOn p selector
    let asked := Gain.noted (if a.needsTargets then [.query selector targets] else [])
    if a.needsTargets ∧ targets = [] then
      { toGain := asked ++ .noted [sink.event (.noMatchingTargets selector clause.name)]
        number := h
        handler := none }
    else
      let handler := Scene.newHandler options sink selector clause a targets
      let g := a.gain setup p options.revealThreshold h selector targets
        (firingEvents setup p handler)
      { toGain := asked ++ (g ++
          .noted [.logged (.boundClause selector clause.name a targets.length)])
        number := h
        handler := some (handler.equipped setup p targets g) }

/-- What clauses add that are bound one after the other. -/
def contributions (setup : Setup) (options : Options) (sink : Sink) (p : Page) (h : Nat) :
    List (String × Clause) → List Contribution
  | [] => []
  | clause :: rest =>
    let c := contribution setup options sink p h clause
    c :: contributions setup options sink (p.gain c.toGain) (h + c.handler.toList.length) rest

/-- What some clauses add to the page all together, and what happens meanwhile. -/
def total (cs : List Contribution) : Gain := .sum (cs.map (·.toGain))

/-! ### What a clause asks for -/

/-- A clause whose elements are missing is reported, and left out. -/
structure Contribution.Skips (c : Contribution) (selector : String) (report : Event) : Prop where
  handler : c.handler = none
  listeners : c.listeners = []
  observers : c.observers = []
  firings : c.firings = []
  events : c.events = [.query selector [], report]

/-- A clause gets a handler, with the registrations and firings that its activation asks for on the
elements that it found. -/
structure Contribution.Binds (c : Contribution) (setup : Setup) (p : Page) (a : Activation)
    (selector : String) (clause : Clause) (targets : List Target) : Prop where
  handler : ∃ handler, c.handler = some handler ∧ handler.clause = (selector, clause) ∧
    handler.activation = a ∧ handler.listeners = c.listeners.map (·.id)
  listeners : c.listeners.map (fun l => (l.scope, l.event, l.callback)) =
    a.heard c.number targets p.contentReady
  count : c.listeners.length = a.listenerCount targets.length p.contentReady
  active : ∀ l ∈ c.listeners, l.active = true
  observers : c.observers.map (fun o => (o.target, o.handler, o.entry)) =
    if a = .reveal then targets.zipIdx.map fun (t, e) => (t, c.number, e) else []
  /-- An observer is given up as soon as its element is seen. -/
  watching : ∀ o ∈ c.observers, o.active = !setup.tells o.target
  firings : c.firings = (a.causes setup p targets).map (⟨c.number, ·⟩)
  /-- What is looked for is looked for first. -/
  asks : a.needsTargets = true → c.events.head? = some (.query selector targets)
  /-- Nothing else is looked for, but by the firings. -/
  queries : c.events.countP Event.isQuery = (if a.needsTargets then 1 else 0) + c.firings.length
  /-- A window is listened to before anything fires. -/
  ordered : ∀ event, a = .window event → ∃ id rest, c.listeners.map (·.id) = [id] ∧
    c.events = .listen id .global event :: rest

/-- A clause looks for elements, and there are none. -/
def Activation.Misses (a : Activation) (p : Page) (selector : String) : Prop :=
  a.needsTargets = true ∧ p.matching selector = []

/-- A contribution is what the activation of its clause asks for on a page. -/
structure Contribution.Accounts (c : Contribution) (setup : Setup) (p : Page) (sink : Sink)
    (selector : String) (clause : Clause) : Prop where
  skips : (Activation.ofName clause.name).Misses p selector →
    c.Skips selector (sink.event (.noMatchingTargets selector clause.name))
  binds : ¬(Activation.ofName clause.name).Misses p selector →
    c.Binds setup p (Activation.ofName clause.name) selector clause
      ((Activation.ofName clause.name).targetsOn p selector)

/-- What a handler gains with the query before and the note behind. -/
theorem binds_gain (setup : Setup) (options : Options) (sink : Sink) (p : Page) (h : Nat)
    (a : Activation) (selector : String) (clause : Clause) (targets : List Target) :
    let handler := Scene.newHandler options sink selector clause a targets
    let g := a.gain setup p options.revealThreshold h selector targets
      (firingEvents setup p handler)
    let asked := Gain.noted (if a.needsTargets then [.query selector targets] else [])
    let noted := Gain.noted [.logged (.boundClause selector clause.name a targets.length)]
    Contribution.Binds ⟨asked ++ (g ++ noted), h, some (handler.equipped setup p targets g)⟩ setup p
      a selector clause targets := by
  intro handler g asked noted
  have listeners : (asked ++ (g ++ noted)).listeners =
      listenersFrom p.nextId (a.heard h targets p.contentReady) :=
    (List.append_nil g.listeners).trans (gain_listeners ..)
  have observers : (asked ++ (g ++ noted)).observers = if a = .reveal then
      targets.zipIdx.map fun (t, e) => ⟨p.nextId + e, t, h, e, !setup.tells t⟩ else [] :=
    (List.append_nil g.observers).trans (gain_observers ..)
  have firings : (asked ++ (g ++ noted)).firings = g.firings := List.append_nil g.firings
  have asks : g.events.countP Event.isQuery = g.firings.length :=
    countP_gain _ _ _ _ _ _ _ _ (countP_firingEvents setup p handler)
  exact
    { handler := by
        refine ⟨_, rfl, rfl, rfl, ?_⟩
        exact congrArg (List.map _) (List.append_nil g.listeners).symm
      listeners := by
        rw [listeners, map_listenersFrom]
      count := by
        rw [listeners, listenersFrom, List.length_map, List.length_zipIdx, Activation.length_heard]
      active := by
        rw [listeners]
        exact fun l mem => active_of_mem_listenersFrom mem
      observers := by
        rw [observers]
        split
        · rw [List.map_map]
          rfl
        · rfl
      watching := by
        rw [observers]
        intro o mem
        split at mem
        · obtain ⟨_, -, rfl⟩ := List.mem_map.mp mem
          rfl
        · cases mem
      firings := firings.trans (gain_firings ..)
      asks := fun needs => by
        simp only [asked, needs, if_true]
        rfl
      queries := by
        rw [firings, Gain.append_events, Gain.append_events, List.countP_append, List.countP_append,
          asks]
        simp only [asked, noted, Gain.noted]
        split <;> rfl
      ordered := fun event is => by
        subst is
        exact ⟨p.nextId, _, by rw [listeners]; rfl, rfl⟩ }

/-- A clause that does not miss its elements gets a handler. -/
theorem contribution_of_finds (setup : Setup) (options : Options) (sink : Sink) (p : Page) (h : Nat)
    {selector : String} {clause : Clause}
    (finds : ¬(Activation.ofName clause.name).Misses p selector) :
    let a := Activation.ofName clause.name
    let targets := a.targetsOn p selector
    let handler := Scene.newHandler options sink selector clause a targets
    let g := a.gain setup p options.revealThreshold h selector targets
      (firingEvents setup p handler)
    contribution setup options sink p h (selector, clause) =
      { toGain := .noted (if a.needsTargets then [.query selector targets] else []) ++ (g ++
          .noted [.logged (.boundClause selector clause.name a targets.length)])
        number := h
        handler := some (handler.equipped setup p targets g) } :=
  if_neg fun is => finds ⟨is.1, (if_pos is.1).symm.trans is.2⟩

/-- A contribution is what the activation of its clause asks for. -/
theorem accounts_contribution (setup : Setup) (options : Options) (sink : Sink) (p : Page) (h : Nat)
    (selector : String) (clause : Clause) :
    (contribution setup options sink p h (selector, clause)).Accounts setup p sink selector
      clause where
  skips misses := by
    unfold contribution
    dsimp only
    generalize Activation.ofName clause.name = a at misses
    have targets : a.targetsOn p selector = [] := (if_pos misses.1).trans misses.2
    rw [targets, if_pos ⟨misses.1, rfl⟩, if_pos misses.1]
    exact ⟨rfl, rfl, rfl, rfl, rfl⟩
  binds finds := by
    rw [contribution_of_finds setup options sink p h finds]
    exact binds_gain ..

/-- What the page answers does not change when something is registered. -/
theorem Contribution.Binds.of_gain {c : Contribution} {setup : Setup} {p : Page} {g : Gain}
    {a : Activation} {selector : String} {clause : Clause} {targets : List Target}
    (binds : c.Binds setup (p.gain g) a selector clause targets) :
    c.Binds setup p a selector clause targets := { binds with }

theorem Contribution.Accounts.of_gain {c : Contribution} {setup : Setup} {p : Page} {g : Gain}
    {sink : Sink} {selector : String} {clause : Clause}
    (accounts : c.Accounts setup (p.gain g) sink selector clause) :
    c.Accounts setup p sink selector clause where
  skips := accounts.skips
  binds misses := (accounts.binds misses).of_gain

/-- One clause after the other contributes what its activation asks for. -/
theorem accounts_contributions (setup : Setup) (options : Options) (sink : Sink) (p : Page)
    (h : Nat) (clauses : List (String × Clause)) :
    List.Forall₂ (fun c clause => c.Accounts setup p sink clause.1 clause.2)
      (contributions setup options sink p h clauses) clauses := by
  induction clauses generalizing p h with
  | nil => exact .nil
  | cons clause rest ih =>
    refine .cons (accounts_contribution setup options sink p h clause.1 clause.2) ?_
    exact (ih _ _).imp fun _ _ own => own.of_gain

namespace Scene

variable {react : Reaction} {s t u : Scene} {c : Contribution} {cs : List Contribution}

/-! ### Binding a clause -/

/-- From `s` to `t` a contribution is added. -/
structure Contributes (c : Contribution) (s t : Scene) : Prop where
  number : c.number = s.handlers.length
  handlers : t.handlers = s.handlers ++ c.handler.toList
  setup : t.setup = s.setup
  page : t.page = s.page.gain c.toGain
  firings : t.firings = s.firings ++ c.firings
  events : t.events = s.events ++ c.events

/-- Adding a handler adds what it gains. -/
theorem gains_addHandler (inert : Inert react s.setup) (lt : ∀ id ∈ s.page.ids, id < s.page.nextId)
    (options : Options) (sink : Sink) (selector : String) (clause : Clause)
    (activation : Activation) (targets : List Target) :
    let handler := newHandler options sink selector clause activation targets
    let g := activation.gain s.setup s.page options.revealThreshold s.handlers.length selector
      targets (firingEvents s.setup s.page handler)
    Gains s.handlers.length handler (handler.equipped s.setup s.page targets g)
      (g ++ .noted [.logged (.boundClause selector clause.name activation targets.length)])
      (s.move (.add handler))
      (addHandler react options sink s selector clause activation targets).2 := by
  intro handler g
  have known := s.getElem?_add handler
  have wires := gains_wire options.revealThreshold selector targets (s := s.move (.add handler))
    inert known lt fun is => by simp only [handler, newHandler] at is ⊢; simp [is]
  rw [addHandler_eq]
  exact wires.trans (gains_record wires.known' none _)

/-- What a new handler gains is added with it. -/
theorem Gains.contributes {handler handler' : Handler} {g : Gain}
    (gains : Gains s.handlers.length handler handler' g (s.move (.add handler)) t) :
    Contributes ⟨g, s.handlers.length, some handler'⟩ s t where
  number := rfl
  handlers := by
    rw [gains.handlers, move]
    simp
  setup := gains.setup
  page := gains.page
  firings := gains.firings
  events := gains.events

/-- What was asked before comes first. -/
theorem Contributes.asked {g : Gain} {number : Nat} {handler : Option Handler} (event : Event)
    (adds : Contributes ⟨g, number, handler⟩ (s.record none event) t) :
    Contributes ⟨.noted [event] ++ g, number, handler⟩ s t where
  number := adds.number
  handlers := adds.handlers
  setup := adds.setup
  page := by
    rw [Page.gain_append, s.page.gain_of_nil rfl rfl]
    exact adds.page
  firings := adds.firings
  events := by
    rw [adds.events, events_record, List.append_assoc]
    rfl

/-- Binding a clause adds its contribution. -/
theorem contributes_bindClause (inert : Inert react s.setup)
    (lt : ∀ id ∈ s.page.ids, id < s.page.nextId) (options : Options) (sink : Sink)
    (selector : String) (clause : Clause) :
    let c := contribution s.setup options sink s.page s.handlers.length (selector, clause)
    (bindClause react options sink s selector clause).1 = c.handler.map (fun _ => c.number) ∧
      Contributes c s (bindClause react options sink s selector clause).2 := by
  unfold bindClause contribution Activation.targetsOn
  dsimp only
  generalize Activation.ofName clause.name = activation
  by_cases needs : activation.needsTargets = true
  · simp only [needs, if_true, true_and]
    by_cases empty : s.page.matching selector = []
    · simp only [empty, List.isEmpty_nil, if_true]
      refine ⟨rfl, .asked _ ?_⟩
      rw [report_eq_noteAll]
      exact
        { number := rfl
          handlers := (List.append_nil _).symm
          setup := rfl
          page := (s.page.gain_of_nil rfl rfl).symm
          firings := (List.append_nil _).symm
          events := noteAll_events .. }
    · simp only [empty, if_false, List.isEmpty_iff]
      have adds := (gains_addHandler
        (s := s.record none (.query selector (s.page.matching selector))) inert lt options sink
        selector clause activation (s.page.matching selector)).contributes
      simp only [record_setup, record_page, record_handlers] at adds
      exact ⟨rfl, .asked _ adds⟩
  · simp only [needs, Bool.false_eq_true, if_false, false_and, Gain.noted_nil_append]
    exact ⟨rfl, (gains_addHandler inert lt options sink selector clause _ _).contributes⟩

/-! ### Binding all clauses -/

/-- From `s` to `t` contributions are added, one after the other. -/
structure ContributesAll (cs : List Contribution) (s t : Scene) : Prop where
  handlers : t.handlers = s.handlers ++ cs.filterMap (·.handler)
  numbered : ∀ c ∈ cs, ∀ handler, c.handler = some handler →
    t.handlers[c.number]? = some handler
  setup : t.setup = s.setup
  page : t.page = s.page.gain (total cs)
  firings : t.firings = s.firings ++ (total cs).firings
  events : t.events = s.events ++ (total cs).events

theorem contributesAll_nil (s : Scene) : ContributesAll [] s s where
  handlers := (List.append_nil _).symm
  numbered _ mem := absurd mem List.not_mem_nil
  setup := rfl
  page := (s.page.gain_of_nil rfl rfl).symm
  firings := (List.append_nil _).symm
  events := (List.append_nil _).symm

theorem Contributes.all (first : Contributes c s t) (rest : ContributesAll cs t u) :
    ContributesAll (c :: cs) s u where
  handlers := by
    rw [rest.handlers, first.handlers, List.append_assoc]
    cases is : c.handler <;> simp [is]
  numbered c' mem handler is := by
    rcases List.mem_cons.mp mem with rfl | mem
    · rw [rest.handlers, first.handlers, is, first.number]
      simp
    · exact rest.numbered c' mem handler is
  setup := rest.setup.trans first.setup
  page := by
    rw [rest.page, first.page, ← Page.gain_append]
    rfl
  firings := by
    rw [rest.firings, first.firings, List.append_assoc]
    rfl
  events := by
    rw [rest.events, first.events, List.append_assoc]
    rfl

/-- Binding clauses adds what each of them contributes. -/
theorem contributes_bindClauses {depth : Nat} (inert : Inert (reactWithin depth) s.setup)
    (orderly : s.Orderly) (options : Options) (sink : Sink) (clauses : List (String × Clause)) :
    let cs := contributions s.setup options sink s.page s.handlers.length clauses
    (bindClauses (reactWithin depth) options sink s clauses).1 =
        cs.filterMap (fun c => c.handler.map fun _ => c.number) ∧
      ContributesAll cs s (bindClauses (reactWithin depth) options sink s clauses).2 := by
  induction clauses generalizing s with
  | nil => exact ⟨rfl, contributesAll_nil s⟩
  | cons first rest ih =>
    obtain ⟨selector, clause⟩ := first
    obtain ⟨orderly', -⟩ := orderly.bindClause depth options sink selector clause
    have first := contributes_bindClause inert orderly.numbered.lt options sink selector clause
    rw [contributions, bindClauses_cons]
    -- Only what the contribution adds matters to the others.
    generalize contribution s.setup options sink s.page s.handlers.length (selector, clause) = c
      at first ⊢
    obtain ⟨number, adds⟩ := first
    have inert' : Inert (reactWithin depth)
        (bindClause (reactWithin depth) options sink s selector clause).2.setup := by
      rw [adds.setup]
      exact inert
    obtain ⟨numbers, all⟩ := ih inert' orderly'
    rw [adds.setup, adds.page, adds.handlers, List.length_append] at numbers all
    refine ⟨?_, adds.all all⟩
    simp only [bindClauses]
    rw [number, numbers]
    cases is : c.handler <;> simp [is]

/-- The handlers with the numbers of some contributions are theirs. -/
theorem ContributesAll.handlersAt (adds : ContributesAll cs s t) :
    t.handlersAt (cs.filterMap fun c => c.handler.map fun _ => c.number) =
      cs.filterMap (·.handler) := by
  rw [Scene.handlersAt, List.filterMap_filterMap]
  refine List.filterMap_congr fun c mem => ?_
  cases is : c.handler with
  | none => rfl
  | some handler => exact adds.numbered c mem handler is

theorem length_numbers (cs : List Contribution) :
    (cs.filterMap fun c => c.handler.map fun _ => c.number).length =
      (cs.filterMap (·.handler)).length := by
  simp [List.length_filterMap_eq_countP]

/-! ### Binds -/

/-- A bind adds contributions to a scene: one for each clause of its source, in order, behind what
is noted while the source is read. -/
structure BindAdds (s : Scene) (route : Route) (source : Source) (cs : List Contribution) :
    Prop where
  clauses : List.Forall₂
    (fun c clause => c.Accounts s.setup s.page (s.route route).2 clause.1 clause.2) cs
    source.clauses
  answer : (s.step (.bind route source)).1 = .bound (cs.filterMap (·.handler))
  handlers : (s.step (.bind route source)).2.handlers = s.handlers ++ cs.filterMap (·.handler)
  numbered : ∀ c ∈ cs, ∀ handler, c.handler = some handler →
    (s.step (.bind route source)).2.handlers[c.number]? = some handler
  page : (s.step (.bind route source)).2.page = s.page.gain (total cs)
  firings : (s.step (.bind route source)).2.firings = s.firings ++ cs.flatMap (·.firings)
  events : (s.step (.bind route source)).2.events = s.events ++ source.notes.map .logged ++
    cs.flatMap (·.events) ++ [.logged (.bound (cs.filterMap (·.handler)).length)]

theorem read_eq_noteAll (s : Scene) (source : Source) :
    s.read source = s.noteAll none (source.notes.map .logged) := by
  have each (note : Note) (t : Scene) (_ : t.setup = s.setup) :
      t.log none note = t.noteAll none [.logged note] := rfl
  rw [read, foldl_eq_noteAll each source.notes rfl, List.map_eq_flatMap]

/-- While no effect reacts, a bind adds what each of its clauses asks for, in order: a clause whose
elements are missing is reported and left out, and every other one gets its handler. -/
theorem bind_accounts {setup : Setup} (before : List Step)
    (calm : (setup.start.after before).Calm) (route : Route) (source : Source) :
    ∃ cs, (setup.start.after before).BindAdds route source cs := by
  have orderly := orderly_after setup before
  generalize setup.start.after before = s at calm orderly
  have reads := leads_read (s := s) (h := 0) carried_true.toChained (fun _ _ _ _ _ => trivial)
    source
  obtain ⟨orderly', -, -⟩ := reads orderly
  have read := s.read_eq_noteAll source
  have inert : Inert (s.read source).react (s.read source).setup := read ▸ calm.inert
  have binds := contributes_bindClauses inert orderly' (s.route route).1 (s.route route).2
    source.clauses
  have setup : (s.read source).setup = s.setup := by rw [read]; rfl
  have page : (s.read source).page = s.page := by rw [read]; rfl
  have handlers : (s.read source).handlers = s.handlers := by rw [read]; rfl
  have firings : (s.read source).firings = s.firings := by rw [read]; rfl
  rw [setup, page, handlers] at binds
  have accounts := accounts_contributions s.setup (s.route route).1 (s.route route).2 s.page
    s.handlers.length source.clauses
  generalize contributions s.setup (s.route route).1 (s.route route).2 s.page s.handlers.length
    source.clauses = cs at binds accounts
  obtain ⟨numbers, adds⟩ := binds
  have length := congrArg List.length numbers
  rw [length_numbers] at length
  have handed := adds.handlersAt
  rw [← numbers] at handed
  exact ⟨cs,
    { clauses := accounts
      answer := congrArg Answer.bound handed
      handlers := adds.handlers.trans (by rw [handlers])
      numbered := adds.numbered
      page := adds.page.trans (by rw [page])
      firings := adds.firings.trans (by rw [firings, total, Gain.sum_firings, List.flatMap_map])
      events := by
        have noted := adds.events
        rw [read, noteAll_events, total, Gain.sum_events, List.flatMap_map] at noted
        rw [← length, ← noted, ← read]
        exact events_record (s.bound route source) none _ }⟩

/-- A page with two buttons that is loaded, and an effect that takes no page steps. -/
def loadedButtons : Setup :=
  { Setup.plain [("button", [1, 2])] [("fall", .script [])] 0 with loaded := true }

/-- Buttons that react when they are held, a link that the page does not have, and a window that is
loaded already. -/
def buttonsLinkWindow : List Block :=
  [⟨"button", [⟨"onhold.click", [⟨"text", "fall"⟩]⟩]⟩, ⟨"link", [⟨"click", [⟨"text", "fall"⟩]⟩]⟩,
    ⟨"button", [⟨"window.onload", [⟨"text", "fall"⟩]⟩]⟩]

/-- The buttons get three listeners each, the link is left out, and the window fires at once. -/
theorem bind_accounts_loadedButtons :
    let s := loadedButtons.start.after []
    let t := (s.step (.bind .engine (.blocks buttonsLinkWindow))).2
    t.handlers.map (·.listeners.length) = [6, 1] ∧ t.firings = [⟨1, .alreadyPast⟩] ∧
      ∃ cs, s.BindAdds .engine (.blocks buttonsLinkWindow) cs := by
  intro s t
  have facts : t.handlers.map (·.listeners.length) = [6, 1] ∧
      t.firings = [⟨1, .alreadyPast⟩] := by
    decide +kernel
  have calm : s.Calm := .inl (Setup.quiet_of_entries (List.forall_mem_singleton.mpr rfl))
  exact ⟨facts.1, facts.2, bind_accounts [] calm .engine (.blocks buttonsLinkWindow)⟩

end Scene

end TriggerSheet
