import TriggerSheet.Proofs.Scene.Contribution
import TriggerSheet.Proofs.Scene.Solo
import TriggerSheet.Proofs.Scene.Trace

/-!
# A handler whose clause is bound

When a clause is bound while effects take no page steps, what its handler has to itself is told by
the clause and by what the page answers: neither the number of the handler, nor where it reports to,
nor what else is registered makes a difference.

## Main definitions

* `Solo.bound`, `Solo.ofClause` — what a handler has to itself when its clause is bound
* `Scene.BindsOne` — a clause is bound, and its handler gains what it asks for

## Main results

* `plain_equipped` — the handler of a clause is the same, whatever else is registered
* `Scene.BindsOne.shown` — the firings of a handler while its clause is bound
* `ClauseBind.solo_after` — a handler whose clause is bound starts as if it were alone
-/

namespace TriggerSheet

/-- What the handler of a clause gains on a page. -/
def Setup.gainFor (setup : Setup) (options : Options) (sink : Sink) (p : Page) (h : Nat)
    (selector : String) (clause : Clause) (a : Activation) (targets : List Target) : Gain :=
  a.gain setup p options.revealThreshold h selector targets
    (firingEvents setup p (Scene.newHandler options sink selector clause a targets))

/-- What a handler has to itself when it was bound to some elements of a page. -/
def Solo.bound (setup : Setup) (p : Page) (options : Options) (selector : String) (clause : Clause)
    (a : Activation) (targets : List Target) : Solo :=
  let handler := Scene.newHandler options .log selector clause a targets
  let g := setup.gainFor options .log p 0 selector clause a targets
  { setup
    page := p
    handler := some (handler.equipped setup p targets g).plain
    listeners := g.listeners.map Listener.plain
    observers := g.observers.map fun o => ⟨o.target, o.entry, o.active, o.active⟩
    timers := []
    shown := (a.causes setup p targets).map fun cause => (cause, firingEvents setup p handler) }

/-- What the handler of a clause has to itself when the clause was bound on a page. -/
def Solo.ofClause (setup : Setup) (p : Page) (options : Options) : String × Clause → Solo
  | (selector, clause) =>
    let a := Activation.ofName clause.name
    Solo.bound setup p options selector clause a (a.targetsOn p selector)

theorem targetsOn_plain (a : Activation) (p : Page) (selector : String) :
    a.targetsOn p.plain selector = a.targetsOn p selector := rfl

theorem handler_of_mem_heard {a : Activation} {h : Nat} {targets : List Target} {ready : Bool}
    {asked : Scope × String × Callback} (mem : asked ∈ a.heard h targets ready) :
    asked.2.2.handler = h := by
  cases a with
  | singleClick | doubleClick | element event =>
    obtain ⟨_, -, rfl⟩ := List.mem_map.mp mem
    rfl
  | hold =>
    obtain ⟨_, -, own⟩ := List.mem_flatMap.mp mem
    simp only [List.mem_cons, List.not_mem_nil, or_false] at own
    rcases own with rfl | rfl | rfl <;> rfl
  | reveal => cases mem
  | window event =>
    cases List.mem_singleton.mp mem
    rfl
  | contentReady =>
    cases ready with
    | true => cases mem
    | false =>
      cases List.mem_singleton.mp mem
      rfl

/-- What is asked for by a listener, whoever listens. -/
def unnamed (asked : Scope × String × Callback) : Scope × String × Callback :=
  (asked.1, asked.2.1, asked.2.2.renumber 0)

theorem map_unnamed_heard (a : Activation) (h : Nat) (targets : List Target) (ready : Bool) :
    (a.heard h targets ready).map unnamed = a.heard 0 targets ready := by
  cases a with
  | singleClick | doubleClick | element event => exact List.map_map ..
  | hold => exact List.map_flatMap ..
  | reveal | window event => rfl
  | contentReady => cases ready <;> rfl

theorem map_plain_listenersFrom (n : Nat) (heard : List (Scope × String × Callback)) :
    (listenersFrom n heard).map Listener.plain =
      (heard.map unnamed).map fun (scope, event, c) => ⟨0, scope, event, c, true⟩ := by
  conv_rhs => rw [← map_listenersFrom n heard, List.map_map, List.map_map]
  exact List.map_congr_left fun l mem => by
    simp [Listener.plain, unnamed, active_of_mem_listenersFrom mem]

section GainFor

variable (setup : Setup) (options : Options) (sink : Sink) (p : Page) (h : Nat) (selector : String)
  (clause : Clause) (a : Activation) (targets : List Target)

theorem gainFor_firings : (setup.gainFor options sink p h selector clause a targets).firings =
    (a.causes setup p targets).map (⟨h, ·⟩) := gain_firings ..

theorem gainFor_listeners : (setup.gainFor options sink p h selector clause a targets).listeners =
    listenersFrom p.nextId (a.heard h targets p.contentReady) := gain_listeners ..

theorem gainFor_observers : (setup.gainFor options sink p h selector clause a targets).observers =
    if a = .reveal then targets.zipIdx.map fun (t, e) => ⟨p.nextId + e, t, h, e, !setup.tells t⟩
    else [] := gain_observers ..

/-- Whatever else is registered, a handler gains the same listeners. -/
theorem plain_listeners_gainFor :
    (setup.gainFor options sink p h selector clause a targets).listeners.map Listener.plain =
      (setup.gainFor options .log p.plain 0 selector clause a targets).listeners.map
        Listener.plain := by
  rw [gainFor_listeners, gainFor_listeners, map_plain_listenersFrom, map_plain_listenersFrom,
    map_unnamed_heard, map_unnamed_heard]
  rfl

/-- Whatever else is registered, the handler of a clause is the same. -/
theorem plain_equipped :
    ((Scene.newHandler options sink selector clause a targets).equipped setup p targets
        (setup.gainFor options sink p h selector clause a targets)).plain =
      ((Scene.newHandler options .log selector clause a targets).equipped setup p.plain targets
        (setup.gainFor options .log p.plain 0 selector clause a targets)).plain := by
  have firings : (setup.gainFor options sink p h selector clause a targets).firings.length =
      (setup.gainFor options .log p.plain 0 selector clause a targets).firings.length := by
    rw [gainFor_firings, gainFor_firings, List.length_map, List.length_map]
    rfl
  have listeners := congrArg List.length
    (plain_listeners_gainFor setup options sink p h selector clause a targets)
  have entry (id : Nat) (target : Target) : (setup.entryFor id target).plain =
      (setup.entryFor 0 target).plain := by
    unfold Setup.entryFor
    split <;> rfl
  rw [List.length_map, List.length_map] at listeners
  simp only [Handler.plain, Handler.equipped, Scene.newHandler, Handler.mk.injEq, true_and]
  refine ⟨?_, ?_, ?_⟩
  · rw [firings]
    rfl
  · simp only [List.nil_append, List.map_map, Function.comp_def, List.map_const', listeners]
  · by_cases reveals : a = .reveal
    · simp only [reveals, if_true, List.map_map, Function.comp_def, entry]
    · simp only [reveals, if_false]

/-- Whatever else is registered, a handler observes the same elements. -/
theorem map_kept_gainFor :
    (setup.gainFor options sink p h selector clause a targets).observers.map
        (fun o => (⟨o.target, o.entry, o.active, o.active⟩ : Kept Target)) =
      (setup.gainFor options .log p.plain 0 selector clause a targets).observers.map
        fun o => ⟨o.target, o.entry, o.active, o.active⟩ := by
  rw [gainFor_observers, gainFor_observers]
  split
  · rw [List.map_map, List.map_map]
    rfl
  · rfl

end GainFor

namespace Scene

variable {s t : Scene} {h : Nat}

/-- There is nothing of a handler that is yet to come. -/
theorem Orderly.solo_new (orderly : s.Orderly) :
    s.page.listeners.filter (·.callback.handler = s.handlers.length) = [] ∧
      s.page.observers.filter (·.handler = s.handlers.length) = [] ∧
      s.page.timers.filter (·.handler = s.handlers.length) = [] ∧
      s.shown s.handlers.length = [] := by
  have other {n : Nat} (lt : n < s.handlers.length) : ¬decide (n = s.handlers.length) = true := by
    simpa using Nat.ne_of_lt lt
  refine ⟨List.filter_eq_nil_iff.mpr fun l mem => ?_, List.filter_eq_nil_iff.mpr fun o mem => ?_,
    List.filter_eq_nil_iff.mpr fun t mem => ?_, ?_⟩
  · obtain ⟨listened, fits⟩ := orderly.listeners l mem
    exact other (lt_of_fits listened fits)
  · exact other (orderly.observers o mem).lt
  · exact other (orderly.timers t mem).lt
  · rw [shown, List.filter_eq_nil_iff.mpr fun f mem => ?_, List.map_nil]
    exact other (orderly.firings f.1 (List.fst_mem_of_mem_zipIdx mem))

section Bound

variable {options : Options} {sink : Sink} {selector : String} {clause : Clause} {a : Activation}
  {targets : List Target} {asked noted : List Event}

/-- The entries of a handler whose clause was bound hold the observers that are active. -/
theorem held_of_mem_gainFor {p : Page} {setup : Setup} (known : t.handlers[h]? =
      some ((newHandler options sink selector clause a targets).equipped setup p targets
        (setup.gainFor options sink p h selector clause a targets))) {o : Observer}
    (mem : o ∈ (setup.gainFor options sink p h selector clause a targets).observers) :
    o.handler = h ∧ decide (t.held? h o.entry = some o.id) = o.active := by
  rw [gainFor_observers] at mem
  split at mem
  next reveals =>
    obtain ⟨⟨target, e⟩, there, rfl⟩ := List.mem_map.mp mem
    refine ⟨rfl, ?_⟩
    have entry : t.entryAt? h e = some (setup.entryFor (p.nextId + e) target) := by
      rw [entryAt?, known, Option.bind_some, Handler.equipped]
      simp [newHandler, reveals, List.mk_mem_zipIdx_iff_getElem?.mp there]
    rw [held?, entry, Option.bind_some, Setup.entryFor]
    cases tells : setup.tells target <;> simp [tells]
  next => cases mem

/-- From `s` to `t` a clause is bound: its handler gains what it asks for, and all queries have one
answer meanwhile. -/
structure BindsOne (options : Options) (sink : Sink) (selector : String) (clause : Clause)
    (a : Activation) (targets : List Target) (s t : Scene) : Prop where
  setup : t.setup = s.setup
  handlers : t.handlers = s.handlers ++
    [(newHandler options sink selector clause a targets).equipped s.setup s.page targets
      (s.setup.gainFor options sink s.page s.handlers.length selector clause a targets)]
  page : t.page = s.page.gain
    (s.setup.gainFor options sink s.page s.handlers.length selector clause a targets)
  firings : t.firings = s.firings ++ (a.causes s.setup s.page targets).map (⟨s.handlers.length, ·⟩)
  journal : ∃ tail, s.Adds (fun _ => []) t tail ∧ ∀ event ∈ tail.map (·.event),
    event.isQuery = true → event = .query selector (s.page.matching selector)

/-- What contributes what a clause asks for binds the clause, if all that it asks before is the
query for its elements, and it asks nothing behind. -/
theorem Contributes.bindsOne (adds : Contributes ⟨.noted asked ++ (s.setup.gainFor options sink
        s.page s.handlers.length selector clause a targets ++ .noted noted), s.handlers.length,
      some ((newHandler options sink selector clause a targets).equipped s.setup s.page targets
        (s.setup.gainFor options sink s.page s.handlers.length selector clause a targets))⟩ s t)
    (asks : ∀ event ∈ asked, event = .query selector (s.page.matching selector))
    (plain : ∀ event ∈ noted, event.isQuery = false) (new : s.AddsNew t) :
    BindsOne options sink selector clause a targets s t := by
  obtain ⟨tail, new⟩ := new
  have events : tail.map (·.event) = _ := List.append_cancel_left
    ((List.map_append.symm.trans (congrArg (List.map _) new.journal.symm)).trans adds.events)
  refine
    { setup := adds.setup
      handlers := adds.handlers
      page := ?_
      firings := adds.firings.trans (congrArg _ ((List.append_nil _).trans (gainFor_firings ..)))
      journal := ⟨tail, new, fun event mem is => ?_⟩ }
  · have first : s.page.gain (.noted asked) = s.page := s.page.gain_of_nil rfl rfl
    rw [adds.page, Page.gain_append, first, Page.gain_append]
    exact Page.gain_of_nil _ rfl rfl
  · rw [events] at mem
    rcases List.mem_append.mp mem with first | mem
    · exact asks event first
    rcases List.mem_append.mp mem with gained | last
    -- Between the two only the firings ask, and each asks the same.
    · rcases List.mem_cons.mp (mem_fires_of_isQuery _ _ _ _ _ _ _ _ gained is) with rfl | answered
      · rfl
      · rw [Handler.not_isQuery_of_mem_events answered] at is
        cases is
    · rw [plain event last] at is
      cases is

namespace BindsOne

variable (binds : BindsOne options sink selector clause a targets s t)

include binds

theorem known : t.handlers[s.handlers.length]? =
    some ((newHandler options sink selector clause a targets).equipped s.setup s.page targets
      (s.setup.gainFor options sink s.page s.handlers.length selector clause a targets)) := by
  rw [binds.handlers, List.getElem?_append_right (Nat.le_refl _), Nat.sub_self]
  rfl

/-- A firing asks its query, and then does what its clause says with the answer. -/
theorem map_plain_ownEntries {tail : List JournalEntry} (new : s.Adds (fun _ => []) t tail)
    (asks : ∀ event ∈ tail.map (·.event), event.isQuery = true →
      event = .query selector (s.page.matching selector)) {f : Nat} {cause : Cause}
    (le : s.firings.length ≤ f) (begun : t.firings[f]? = some ⟨s.handlers.length, cause⟩) :
    (ownEntries tail f).map (·.event.plain) = firingEvents s.setup s.page.plain
      (newHandler options .log selector clause a targets) := by
  obtain ⟨handler, there, found, n, accounts, -⟩ := new.new f _ le begun
  obtain rfl := Option.some.inj (binds.known.symm.trans there)
  have asked : .query selector found ∈ tail.map (·.event) := by
    obtain ⟨entry, mem, is⟩ := List.mem_map.mp (accounts ▸ List.mem_cons_self ..)
    exact is ▸ List.mem_map_of_mem (List.mem_filter.mp mem).1
  obtain rfl : found = s.page.matching selector := (Event.query.inj (asks _ asked rfl)).2
  have all := congrArg (List.map Event.plain) accounts
  rw [List.map_map, List.map_cons, Handler.map_plain_events, binds.setup] at all
  exact all

/-- The firings of a handler while its clause is bound. -/
theorem shown (fair : s.Fair) :
    t.shown s.handlers.length = (a.causes s.setup s.page targets).map fun cause =>
      (cause, firingEvents s.setup s.page.plain
        (newHandler options .log selector clause a targets)) := by
  obtain ⟨tail, new, asks⟩ := binds.journal
  have none (f : Nat) (lt : f < s.firings.length) : ownEntries tail f = [] :=
    List.map_eq_nil_iff.mp (new.old f lt)
  have own : ∀ f ∈ ((a.causes s.setup s.page targets).map
      (⟨s.handlers.length, ·⟩ : Cause → Firing)).zipIdx s.firings.length,
      f.1.handler = s.handlers.length ∧ (ownEntries tail f.2).map (·.event.plain) =
        firingEvents s.setup s.page.plain (newHandler options .log selector clause a targets) := by
    intro (firing, f) mem
    obtain ⟨le, there⟩ := List.mk_mem_zipIdx_iff_le_and_getElem?_sub.mp mem
    have begun : t.firings[f]? = some firing := by
      rw [binds.firings, List.getElem?_append_right le, there]
    obtain ⟨_, -, rfl⟩ := List.mem_map.mp (List.mem_of_getElem? there)
    exact ⟨rfl, binds.map_plain_ownEntries new asks le begun⟩
  -- All firings that are new are its own, and all of them show the same.
  rw [shown_append fair.tagged binds.firings new.journal none, fair.orderly.solo_new.2.2.2,
    List.filter_eq_self.mpr fun f mem => decide_eq_true (own f mem).1, List.nil_append,
    List.map_congr_left fun f mem => by rw [(own f mem).2]]
  conv_rhs => rw [← List.zipIdx_map_fst s.firings.length (a.causes s.setup s.page targets)]
  rw [List.zipIdx_map, List.map_map, List.map_map]
  rfl

/-- What a handler has to itself when its clause is bound is told by the clause and by what the page
answers. -/
theorem solo (fair : s.Fair) : t.solo s.handlers.length =
    Solo.bound s.setup s.page.plain options selector clause a targets := by
  obtain ⟨noListeners, noObservers, noTimers, -⟩ := fair.orderly.solo_new
  let g := s.setup.gainFor options sink s.page s.handlers.length selector clause a targets
  have listening : ∀ l ∈ g.listeners, l.callback.handler = s.handlers.length := fun l mem => by
    have heard := List.mem_map_of_mem (f := fun l => (l.scope, l.event, l.callback)) mem
    rw [gainFor_listeners, map_listenersFrom] at heard
    exact handler_of_mem_heard heard
  have observing : ∀ o ∈ g.observers, o.handler = s.handlers.length ∧
      decide (t.held? s.handlers.length o.entry = some o.id) = o.active := fun o mem =>
    held_of_mem_gainFor binds.known mem
  -- What was registered before belongs to others, and what is new to the handler.
  ext1
  · exact binds.setup
  · exact (congrArg Page.plain binds.page).trans rfl
  · exact (congrArg (Option.map Handler.plain) binds.known).trans
      (congrArg some (plain_equipped ..))
  · simp only [Scene.solo, binds.page, Page.gain, List.filter_append, noListeners,
      List.nil_append]
    rw [List.filter_eq_self.mpr fun l mem => decide_eq_true (listening l mem)]
    exact plain_listeners_gainFor ..
  · simp only [Scene.solo, binds.page, Page.gain, List.filter_append, noObservers,
      List.nil_append]
    rw [List.filter_eq_self.mpr fun o mem => decide_eq_true (observing o mem).1,
      List.map_congr_left fun o mem => by rw [(observing o mem).2]]
    exact map_kept_gainFor ..
  · simp only [Scene.solo, binds.page, Page.gain, noTimers]
    rfl
  · exact binds.shown fair

end BindsOne

end Bound

end Scene

namespace ClauseBind

variable {b : ClauseBind} {h : Nat}

/-- The elements that the clause finds, if it looks for any. -/
def found (b : ClauseBind) : List Target := b.activation.targetsOn b.scene.page b.selector

theorem contributes (fair : b.scene.Fair) :
    let c := contribution b.scene.setup b.options b.sink b.scene.page b.scene.handlers.length
      (b.selector, b.clause)
    b.handler? = c.handler.map (fun _ => c.number) ∧ Scene.Contributes c b.scene b.after := by
  have binds := Scene.contributes_bindClause (Scene.inert_of_quiet fair.quiet b.depth)
    fair.orderly.numbered.lt b.options b.sink b.selector b.clause
  rw [handler?, after]
  exact binds

theorem lt_after (orderly : b.scene.Orderly) (is : b.handler? = some h) :
    h < b.after.handlers.length := by
  rw [handler?] at is
  rw [after]
  exact (Scene.number_bindClause b.depth b.options b.sink orderly b.selector b.clause is).2

/-- A clause that misses its elements gets no handler. -/
theorem handler?_of_misses (fair : b.scene.Fair)
    (misses : b.activation.Misses b.scene.page b.selector) : b.handler? = none := by
  have accounts := accounts_contribution b.scene.setup b.options b.sink b.scene.page
    b.scene.handlers.length b.selector b.clause
  rw [(b.contributes fair).1, (accounts.skips misses).handler, Option.map_none]

/-- Every other one gets a handler that gains what its activation asks for. -/
theorem bindsOne (fair : b.scene.Fair) (finds : ¬b.activation.Misses b.scene.page b.selector) :
    b.handler? = some b.scene.handlers.length ∧
      Scene.BindsOne b.options b.sink b.selector b.clause b.activation b.found b.scene b.after := by
  obtain ⟨number, adds⟩ := b.contributes fair
  have is := contribution_of_finds b.scene.setup b.options b.sink b.scene.page
    b.scene.handlers.length finds
  simp only [is] at number adds
  have new := Scene.leads_bindClause Scene.chained_addsNew (n := 0)
    (fun h _ => Scene.closed_addsNew_binds h)
    (fun h cause _ => Scene.carried_addsNew.fires_reactWithin b.depth h cause) b.options b.sink
    b.selector b.clause (Nat.zero_le _) fair.orderly
  refine ⟨number, adds.bindsOne (fun event mem => ?_) (fun event mem => ?_) new.2.2⟩
  · split at mem
    next needs =>
      cases List.mem_singleton.mp mem
      exact congrArg _ (if_pos needs)
    next => cases mem
  · cases List.mem_singleton.mp mem
    rfl

/-- A handler whose clause is bound starts as if it were alone. -/
theorem solo_after (fair : b.scene.Fair) (is : b.handler? = some h) :
    b.after.solo h =
      Solo.ofClause b.scene.setup b.scene.page.plain b.options (b.selector, b.clause) := by
  have finds : ¬b.activation.Misses b.scene.page b.selector := fun misses => by
    rw [b.handler?_of_misses fair misses] at is
    cases is
  obtain ⟨number, binds⟩ := b.bindsOne fair finds
  obtain rfl := Option.some.inj (number.symm.trans is)
  rw [binds.solo fair, Solo.ofClause, targetsOn_plain]
  rfl

end ClauseBind

end TriggerSheet
