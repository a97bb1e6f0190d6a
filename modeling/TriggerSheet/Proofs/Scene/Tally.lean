import TriggerSheet.Proofs.Scene.Trace
import TriggerSheet.Proofs.Scene.Unbind

/-!
# The tally of firings

Every firing has its occasion: an event that the page delivers, a timer that elapses, the first view
of an entry, a bind that comes too late for what the clause waits for, or a step that tells the
handler to fire. No occasion is missed, and none fires twice, whatever effects set off meanwhile.

## Main definitions

* `Event.occasion?` — the firing that a callback sets off whenever it runs
* `Scene.SameCount` — no firing of a kind is added

## Main results

* `Scene.occasions_after` — the firings for events and timers are their callbacks, in order
* `Scene.countP_isReveal_after` — as many entries fired at their first view as were seen
* `Scene.count_past_after`, `Scene.count_manual_after` — the firings that no callback sets off
* `Scene.length_firingsOf_after` — all firings of a handler, by their occasions
-/

namespace TriggerSheet

/-- The firing that a callback sets off whenever it runs. -/
def Event.occasion? : Event → Option Firing
  | called (.event h) => some ⟨h, .event⟩
  | called (.elapse h e) => some ⟨h, .held e⟩
  | _ => none

/-- The timer of an entry of a handler elapses. -/
def Event.elapses (h : Nat) : Event → Bool
  | called (.elapse h' _) => h' = h
  | _ => false

namespace Firing

/-- A firing for an event or for a timer. -/
def isRoutine (f : Firing) : Bool :=
  match f.cause with
  | .event | .held _ => true
  | _ => false

/-- A firing of a handler for one of its timers. -/
def isHold (h : Nat) (f : Firing) : Bool :=
  f.handler = h &&
    match f.cause with
    | .held _ => true
    | _ => false

/-- A firing of a handler for the first view of one of its entries. -/
def isReveal (h : Nat) (f : Firing) : Bool :=
  f.handler = h &&
    match f.cause with
    | .revealed _ => true
    | _ => false

/-- A firing for which no callback runs. -/
def IsBare (f : Firing) : Prop := f.cause = .alreadyPast ∨ f.cause = .manual

theorem IsBare.ne_causes {f : Firing} (bare : f.IsBare) {c : Callback} {cause : Cause}
    (causes : c.Causes cause) : cause ≠ f.cause := by
  rintro rfl
  rcases bare with is | is <;> rw [is] at causes <;> cases c <;> cases causes

end Firing

/-- The firings of a handler are those for each kind of cause. -/
theorem countP_handler_eq (firings : List Firing) (h : Nat) :
    firings.countP (fun f => f.handler = h) =
      firings.count ⟨h, .alreadyPast⟩ + firings.count ⟨h, .event⟩ + firings.countP (·.isHold h) +
        firings.countP (·.isReveal h) + firings.count ⟨h, .manual⟩ := by
  induction firings with
  | nil => rfl
  | cons f rest ih =>
    obtain ⟨h', cause⟩ := f
    simp only [List.countP_cons, List.count_cons, ih]
    by_cases own : h' = h <;> cases cause <;>
      simp [own, Firing.isHold, Firing.isReveal] <;> omega

namespace Scene

variable {s t : Scene} {h : Nat} {f : Firing} {depth : Nat}

/-! ### Events and timers -/

/-- The callbacks for events and timers that ran, and the firings for them, are the same. -/
def Routine (s : Scene) : Prop :=
  s.events.filterMap Event.occasion? = s.firings.filter Firing.isRoutine

theorem occasion?_of_isRemark {event : Event} (remark : event.IsRemark) :
    event.occasion? = none := by
  cases event with
  | called c => cases c <;> first | rfl | exact remark.elim
  | _ => rfl

theorem routine_move {m : Move} (orderly : s.Orderly) (allowed : s.Allows m)
    (routine : s.Routine) : (s.move m).Routine := by
  obtain ⟨asked, remarks, grows⟩ := s.move_events m
  have none : asked.filterMap Event.occasion? = [] :=
    List.filterMap_eq_nil_iff.mpr fun event mem => occasion?_of_isRemark (remarks event mem)
  rw [Routine, grows, List.filterMap_append, List.filterMap_append, none, List.append_nil,
    routine]
  cases m with
  | fire h cause =>
    rw [move_fire_firings s (orderly.lt_of_mayFire allowed), List.filter_append]
    -- Of the causes, events and timers have such a callback, and each has one.
    congr 1
    cases cause with
    | revealed e =>
      simp only [newEvents, List.filterMap_cons, Event.occasion?]
      exact List.filterMap_eq_nil_iff.mpr fun event mem => by
        obtain ⟨id, -, rfl⟩ := List.mem_map.mp mem
        rfl
    | event | held e | alreadyPast | manual => rfl
  | record firing event =>
    simp [newEvents, occasion?_of_isRemark allowed.1, Scene.move]
  | clear h e | quit h e =>
    rw [move, clear_firings]
    refine (congrArg (_ ++ ·) (List.filterMap_eq_nil_iff.mpr fun event mem => ?_)).trans
      (List.append_nil _)
    obtain ⟨id, -, rfl⟩ := List.mem_map.mp mem
    rfl
  | _ =>
    simp [newEvents, Event.occasion?, Scene.move, hold, modifyEntry, modifyHandler, cancel, listen,
      countFiring, log]

/-- In every play the firings for events and timers are their callbacks, in order. -/
theorem occasions_after (setup : Setup) (steps : List Step) :
    (setup.start.after steps).Routine :=
  after_of_move (fun _ _ orderly allowed => routine_move orderly allowed) setup rfl steps

theorem Routine.count_event (routine : s.Routine) (h : Nat) :
    s.firings.count ⟨h, .event⟩ = s.events.count (.called (.event h)) := by
  have same := congrArg (List.count (⟨h, .event⟩ : Firing)) routine
  rw [List.count_filter rfl] at same
  rw [← same, List.count, List.countP_filterMap, List.count]
  refine List.countP_congr fun event _ => ?_
  cases event with
  | called c => cases c <;> simp [Event.occasion?]
  | _ => simp [Event.occasion?]

theorem Routine.countP_isHold (routine : s.Routine) (h : Nat) :
    s.firings.countP (·.isHold h) = s.events.countP (Event.elapses h) := by
  have same := congrArg (List.countP (Firing.isHold h)) routine
  rw [List.countP_filter, List.countP_filterMap] at same
  refine (List.countP_congr fun f _ => ?_).trans (same.symm.trans (List.countP_congr fun event _ =>
    ?_))
  · obtain ⟨h', cause⟩ := f
    cases cause <;> simp [Firing.isHold, Firing.isRoutine]
  · cases event with
    | called c => cases c <;> simp [Event.occasion?, Event.elapses, Firing.isHold]
    | _ => simp [Event.occasion?, Event.elapses]

/-! ### First views -/

/-- What is told of a view, and what fires for one, concerns an entry of a revealing handler. -/
structure Attested (s : Scene) : Prop where
  firings : ∀ h e, ⟨h, .revealed e⟩ ∈ s.firings → s.HasEntry .reveal h e
  events : ∀ h e entered, .called (.see h e entered) ∈ s.events → s.HasEntry .reveal h e

theorem attested_move {m : Move} (orderly : s.Orderly) (allowed : s.Allows m)
    (attested : s.Attested) : (s.move m).Attested where
  firings h e mem := by
    have later := s.extends_move m
    rcases s.firing_of_move m mem with old | ⟨h', cause, rfl, is⟩
    · exact later.hasEntry (attested.firings h e old)
    · cases is
      exact later.hasEntry (orderly.hasEntry_of_isObserved allowed.1)
  events h e entered mem := by
    have later := s.extends_move m
    rcases (s.seen_move m).mp mem with old | new
    · exact later.hasEntry (attested.events h e entered old)
    · exact later.hasEntry (orderly.hasEntry_of_seen allowed new)

theorem attested_after (setup : Setup) (steps : List Step) : (setup.start.after steps).Attested :=
  after_of_move (fun _ _ orderly allowed => attested_move orderly allowed) setup
    ⟨nofun, nofun⟩ steps

/-- A list whose members of a kind are numbered, and are there once or not at all, has as many of
them as numbers are taken. -/
theorem countP_eq_countP_range {α : Type} [DecidableEq α] {l : List α} {p : α → Bool} {n : Nat}
    (item : Nat → α) {taken : Nat → Prop} [DecidablePred taken]
    (injective : Function.Injective item) (kind : ∀ e, p (item e) = true)
    (all : ∀ a ∈ l, p a = true → ∃ e < n, a = item e)
    (once : ∀ e < n, l.count (item e) = if taken e then 1 else 0) :
    l.countP p = (List.range n).countP taken := by
  -- Both sides list the same items, each of them once.
  have perm : (l.filter p).Perm (((List.range n).filter taken).map item) := by
    refine (List.perm_ext_iff_of_nodup (List.nodup_iff_count_le_one.mpr fun a => ?_)
      ((List.nodup_range.filter _).map injective)).mpr fun a => ?_
    · by_cases mem : a ∈ l.filter p
      · obtain ⟨e, lt, rfl⟩ := all a (List.mem_filter.mp mem).1 (List.mem_filter.mp mem).2
        rw [List.count_filter (kind e), once e lt]
        split <;> decide
      · rw [List.count_eq_zero.mpr mem]
        exact Nat.zero_le 1
    · constructor
      · intro mem
        obtain ⟨there, is⟩ := List.mem_filter.mp mem
        obtain ⟨e, lt, rfl⟩ := all a there is
        refine List.mem_map_of_mem (List.mem_filter.mpr ⟨List.mem_range.mpr lt, ?_⟩)
        by_contra free
        rw [← List.count_pos_iff, once e lt, if_neg (by simpa using free)] at there
        exact Nat.lt_irrefl 0 there
      · intro mem
        obtain ⟨e, number, rfl⟩ := List.mem_map.mp mem
        obtain ⟨lt, is⟩ := List.mem_filter.mp number
        refine List.mem_filter.mpr ⟨List.count_pos_iff.mp ?_, kind e⟩
        rw [once e (List.mem_range.mp lt), if_pos (by simpa using is)]
        exact Nat.one_pos
  rw [List.countP_eq_length_filter, perm.length_eq, List.length_map, List.countP_eq_length_filter]

/-- In every play, as many entries of a handler fired at their first view as were seen. -/
theorem countP_isReveal_after (setup : Setup) (steps : List Step) {handler : Handler}
    (known : (setup.start.after steps).handlers[h]? = some handler) :
    (setup.start.after steps).firings.countP (·.isReveal h) =
      (List.range handler.entries.length).countP fun e =>
        .called (.see h e true) ∈ (setup.start.after steps).events := by
  have attested := attested_after setup steps
  -- Only revealing handlers have entries that are seen.
  have lt {e : Nat} (has : (setup.start.after steps).HasEntry .reveal h e) :
      e < handler.entries.length := by
    obtain ⟨handler', known', -, lt⟩ := has
    cases known.symm.trans known'
    exact lt
  refine countP_eq_countP_range (fun e => ⟨h, .revealed e⟩) (fun e e' same => ?_)
    (fun e => by simp [Firing.isReveal]) (fun f mem is => ?_) fun e _ => ?_
  · cases same
    rfl
  · obtain ⟨h', cause⟩ := f
    cases cause with
    | revealed e =>
      obtain rfl : h' = h := by simpa [Firing.isReveal] using is
      exact ⟨e, lt (attested.firings _ e mem), rfl⟩
    | _ => simp [Firing.isReveal] at is
  · by_cases has : (setup.start.after steps).HasEntry .reveal h e
    · exact ((tended_after setup steps).revealsOnce h e has).1
    · rw [if_neg fun seen => has (attested.events h e true seen)]
      exact List.count_eq_zero.mpr fun mem => has (attested.firings h e mem)

/-! ### Firings without a callback -/

/-- No firing of a kind is added. -/
def SameCount (f : Firing) (s t : Scene) : Prop := t.firings.count f = s.firings.count f

theorem chained_sameCount (f : Firing) : Chained (SameCount f) :=
  ⟨fun _ => rfl, fun _ first second => second.trans first⟩

theorem closed_sameCount {kind : Move → Prop} (others : ∀ m, kind m → m ≠ .fire f.handler f.cause) :
    Closed (SameCount f) kind :=
  fun m is s _ _ => s.count_move m (others m is)

/-- Callbacks add no firing that has none. -/
theorem called_sameCount (bare : f.IsBare) : Called (SameCount f) := by
  refine (chained_sameCount f).called (closed_sameCount fun m calls => ?_)
  rintro rfl
  rcases calls with ⟨c, does⟩ | ⟨_, is⟩ | is | is | ⟨c, cause, causes, same⟩
  · cases c with
    | press => rcases does with is | is | is | ⟨_, is⟩ <;> cases is
    | release => rcases does with is | is <;> cases is
    | see => cases does
    | event | elapse => exact does
  · exact is
  · exact is
  · exact is
  · injection same with _ same
    exact bare.ne_causes causes same.symm

/-- A firing without a callback counts once, whatever its effects set off. -/
theorem count_fire (bare : f.IsBare) (orderly : s.Orderly) (lt : h < s.handlers.length)
    {cause : Cause} (own : Firing.IsBare ⟨h, cause⟩) :
    (setOff (reactWithin depth) s h cause).firings.count f =
      s.firings.count f + if f = ⟨h, cause⟩ then 1 else 0 := by
  have called := called_sameCount bare
  have continues : Closed (SameCount f) (Move.Continues h) :=
    closed_sameCount fun m is same => by
      subst same
      exact is
  obtain ⟨still, may⟩ : s.enter h cause = s ∧ s.MayFire h cause := by
    rcases own with rfl | rfl <;> exact ⟨rfl, lt⟩
  have there : h < (s.enter h cause).handlers.length := still.symm ▸ lt
  obtain ⟨-, -, same⟩ := leads_fired called.toChained (called.admits_reactWithin depth) continues
    there (orderly.move (m := .fire h cause) may)
  rw [still] at same
  rw [same, move_fire_firings s lt, List.count_append, List.count_singleton]
  simp only [beq_iff_eq, eq_comm (a := f)]

/-! ### Binding -/

section Binding

variable (bare : f.IsBare)

include bare

theorem count_wireContentReady (orderly : s.Orderly) (lt : h < s.handlers.length)
    (selector : String) :
    (wireContentReady (reactWithin depth) s h selector).firings.count f = s.firings.count f +
      if f = ⟨h, .alreadyPast⟩ ∧ s.page.contentReady = true then 1 else 0 := by
  have asked := orderly.move (m := .record none .askContentReady) (allows_note _ trivial id)
  unfold wireContentReady
  dsimp only
  split
  next ready =>
    have noted := asked.move (m := .record none (.logged (.alreadyReady selector)))
      (allows_note _ trivial id)
    have ready : s.page.contentReady = true := ready
    simp only [ready, and_true]
    exact count_fire bare noted lt (.inl rfl)
  next waits =>
    have waits : ¬s.page.contentReady = true := waits
    rw [if_neg fun is => waits is.2]
    rfl

theorem count_wireWindow (orderly : s.Orderly) (lt : h < s.handlers.length)
    (selector event : String) :
    (wireWindow (reactWithin depth) s h selector event).firings.count f = s.firings.count f +
      if f = ⟨h, .alreadyPast⟩ ∧ event = EventName.load ∧ s.page.loaded = true then 1 else 0 := by
  have listens := orderly.move (m := .listen h .global event (.event h)) ⟨trivial, rfl, lt⟩
  have later := (s.extends_move (.listen h .global event (.event h))).length_handlers
  have asked := listens.move (m := .record none .askLoaded) (allows_note _ trivial id)
  unfold wireWindow
  dsimp only
  split
  next load =>
    subst load
    split
    next loaded =>
      have noted := asked.move (m := .record none (.logged (.alreadyLoaded selector)))
        (allows_note _ trivial id)
      have loaded : s.page.loaded = true := loaded
      simp only [loaded, and_true]
      exact count_fire bare noted (Nat.lt_of_lt_of_le lt later) (.inl rfl)
    next waits =>
      have waits : ¬s.page.loaded = true := waits
      rw [if_neg fun is => waits is.2.2]
      rfl
  next other =>
    rw [if_neg fun is => other is.2.1]
    rfl

theorem count_addHandler (orderly : s.Orderly) (options : Options) (sink : Sink) (selector : String)
    (clause : Clause) {activation : Activation} (needs : activation.needsTargets = true)
    (targets : List Target) :
    (addHandler (reactWithin depth) options sink s selector clause activation
      targets).2.firings.count f = s.firings.count f := by
  rw [addHandler_eq]
  have known := s.getElem?_add (newHandler options sink selector clause activation targets)
  have called := called_sameCount bare
  have wires : Closed (SameCount f) (Move.Wires s.handlers.length) :=
    closed_sameCount fun m is same => by
      subst same
      exact is
  have seen (e : Nat) : Fires (SameCount f) (reactWithin depth) s.handlers.length (.revealed e) :=
    called.calls (called.admits_reactWithin depth) (.see s.handlers.length e true) _ rfl
  obtain ⟨-, -, same⟩ := leads_wireTargets called.toChained wires seen options.revealThreshold
    selector needs targets (List.getElem?_eq_some_iff.mp known).1
    (fun kind e lt => hasEntry_add options sink selector clause activation targets s kind lt)
    (orderly.move (newHandler_unfired options sink selector clause activation targets))
  exact same

end Binding

end Scene

namespace ClauseBind

open Scene

variable {b : ClauseBind} {f : Firing}

/-- A clause for elements waits for nothing that could be past. -/
theorem isPast_of_needsTargets (needs : b.activation.needsTargets = true) : b.isPast = false := by
  unfold isPast
  split
  next is => rw [is] at needs; cases needs
  next is => rw [is] at needs; cases needs
  next => rfl

/-- A clause that waits for what has happened before gets a handler. -/
theorem handler?_of_isPast (past : b.isPast = true) :
    b.handler? = some b.scene.handlers.length := by
  have free : ¬(Activation.ofName b.clause.name).needsTargets = true := fun needs => by
    rw [isPast_of_needsTargets needs] at past
    cases past
  simp only [handler?, bindClause, if_neg free]
  rfl

/-- Of the firings without a callback, binding a clause adds that of a handler which waits for what
has happened before. -/
theorem count_after (bare : f.IsBare) (orderly : b.scene.Orderly) :
    b.after.firings.count f = b.scene.firings.count f +
      if f = ⟨b.scene.handlers.length, .alreadyPast⟩ ∧ b.isPast = true then 1 else 0 := by
  have queried := orderly.move
    (m := .record none (.query b.selector (b.scene.page.matching b.selector)))
    (allows_note _ trivial id)
  have added (activation : Activation) :=
    orderly.move (m := .add (newHandler b.options b.sink b.selector b.clause activation []))
      (newHandler_unfired ..)
  have lt (activation : Activation) : b.scene.handlers.length < (b.scene.move
      (.add (newHandler b.options b.sink b.selector b.clause activation []))).handlers.length :=
    (List.getElem?_eq_some_iff.mp (b.scene.getElem?_add _)).1
  unfold after bindClause
  dsimp only
  by_cases needs : (Activation.ofName b.clause.name).needsTargets = true
  · have now : b.isPast = false := isPast_of_needsTargets needs
    simp only [if_pos needs, now, Bool.false_eq_true, and_false, if_false, Nat.add_zero]
    split
    · rw [report_eq]
      rfl
    · exact count_addHandler bare queried b.options b.sink b.selector b.clause needs _
  · rw [if_neg needs]
    cases kind : Activation.ofName b.clause.name with
    | contentReady =>
      rw [isPast, activation, kind]
      exact count_wireContentReady bare (added .contentReady) (lt .contentReady) b.selector
    | window event =>
      rw [isPast, activation, kind]
      simp only [Bool.and_eq_true, decide_eq_true_eq]
      exact count_wireWindow bare (added (.window event)) (lt (.window event)) b.selector event
    | _ => exact absurd (by rw [kind]; rfl) needs

/-- The clause gets the handler with a number, and the handler fires while it is bound. -/
def firesAtOnce (h : Nat) (b : ClauseBind) : Bool := b.handler? = some h && b.isPast

theorem firesAtOnce_iff {h : Nat} :
    b.firesAtOnce h = true ↔ h = b.scene.handlers.length ∧ b.isPast = true := by
  rw [firesAtOnce, Bool.and_eq_true, decide_eq_true_eq]
  refine and_congr_left fun past => ?_
  rw [handler?_of_isPast past, Option.some.injEq, eq_comm]

/-- A handler that fires while it is bound fires for the first time. -/
theorem count_after_eq_ite (bare : f.IsBare) (orderly : b.scene.Orderly) :
    b.after.firings.count f =
      if f.cause = .alreadyPast ∧ b.firesAtOnce f.handler = true then 1
      else b.scene.firings.count f := by
  rw [count_after bare orderly]
  obtain ⟨h, cause⟩ := f
  simp only [firesAtOnce_iff, Firing.mk.injEq]
  by_cases at_once : cause = .alreadyPast ∧ h = b.scene.handlers.length ∧ b.isPast = true
  · have new : b.scene.firings.count ⟨h, cause⟩ = 0 := List.count_eq_zero.mpr fun mem => by
      have lt : h < b.scene.handlers.length := orderly.firings _ mem
      omega
    rw [if_pos at_once, if_pos ⟨⟨at_once.2.1, at_once.1⟩, at_once.2.2⟩, new]
  · rw [if_neg at_once, if_neg fun is => at_once ⟨is.1.2, is.1.1, is.2⟩]
    rfl

end ClauseBind

namespace Scene

variable {s : Scene} {h : Nat} {f : Firing}

/-- Of the firings without a callback, binding clauses adds those of handlers which wait for what
has happened before. -/
theorem count_bindClauses (bare : f.IsBare) (orderly : s.Orderly) (depth : Nat) (options : Options)
    (sink : Sink) (clauses : List (String × Clause)) :
    (bindClauses (reactWithin depth) options sink s clauses).2.firings.count f =
      if f.cause = .alreadyPast ∧
        (bindsOf depth options sink s clauses).any (·.firesAtOnce f.handler) = true then 1
      else s.firings.count f := by
  induction clauses generalizing s with
  | nil => simp [bindClauses, bindsOf]
  | cons first rest ih =>
    obtain ⟨selector, clause⟩ := first
    have one := ClauseBind.count_after_eq_ite (b := ⟨s, depth, options, sink, selector, clause⟩)
      bare orderly
    simp only [ClauseBind.after] at one
    rw [bindClauses_cons, ih (orderly.bindClause depth options sink selector clause).1, one]
    simp only [bindsOf, ClauseBind.after, List.any_cons, Bool.or_eq_true, and_or_left]
    exact (ite_or ..).symm.trans (if_congr or_comm rfl rfl)

/-! ### Steps -/

theorem count_bind (bare : f.IsBare) (orderly : s.Orderly) (route : Route) (source : Source) :
    (s.bind route source).2.firings.count f =
      if f.cause = .alreadyPast ∧
        (s.binds (.bind route source)).any (·.firesAtOnce f.handler) = true then 1
      else s.firings.count f := by
  obtain ⟨orderly', -, -⟩ := leads_read carried_true.toChained (h := 0)
    (fun _ _ _ _ _ => trivial) source orderly
  have clauses := count_bindClauses bare orderly' (s.read source).budget (s.route route).1
    (s.route route).2 source.clauses
  obtain ⟨journal, read⟩ := s.read_eq source
  have firings : (s.read source).firings = s.firings := by rw [read]
  rw [firings] at clauses
  exact clauses

/-- No other step adds a firing without a callback, unless it tells the handler to fire. -/
theorem leads_sameCount_step (bare : f.IsBare) {step : Step}
    (other : ∀ route source, step ≠ .bind route source)
    (untold : f.cause = .manual → f.handler ∉ s.told step) :
    s.Leads (SameCount f) (s.step step).2 := by
  have called := called_sameCount bare
  refine called.leads_step (fun p _ => called.perform (called.admits_react s) s p)
    (fun route source is => absurd is (other route source))
    (fun b place h is handed depth => ?_) (fun h _ => closed_sameCount fun m unwires same => ?_)
    (closed_sameCount fun m rebinds same => ?_)
  · refine fires_of_closed called.toChained (called.admits_reactWithin depth)
      (closed_sameCount fun m continues same => ?_) (closed_sameCount fun m begins same => ?_)
    · subst same
      exact continues
    · rw [begins] at same
      injection same with own cause
      refine untold cause.symm ?_
      rw [is, ← own]
      exact Option.mem_toList.mpr handed
  · subst same
    exact unwires
  · subst same
    exact rebinds

theorem step_fire (s : Scene) (b place : Nat) :
    (s.step (.fire b place)).2 =
      match s.handedAt b place with
      | some h => setOff (reactWithin s.budget) s h .manual
      | none => s := by
  rw [handedAt, step, withBinding]
  cases known : s.bindings[b]? with
  | none => rfl
  | some binding => cases found : numberAt? binding place <;> simp [found, fireByHand, react]

/-- A step adds the firings while clauses are bound. -/
theorem count_past_step (orderly : s.Orderly) (h : Nat) (step : Step) :
    (s.step step).2.firings.count ⟨h, .alreadyPast⟩ =
      if (s.binds step).any (·.firesAtOnce h) = true then 1
      else s.firings.count ⟨h, .alreadyPast⟩ := by
  by_cases binds : ∃ route source, step = .bind route source
  · obtain ⟨route, source, rfl⟩ := binds
    refine (count_bind (.inl rfl) orderly route source).trans ?_
    simp only [true_and]
  · have none : s.binds step = [] := by
      cases step with
      | bind route source => exact absurd ⟨route, source, rfl⟩ binds
      | _ => rfl
    rw [none, if_neg (by simp)]
    exact (leads_sameCount_step (f := ⟨h, .alreadyPast⟩) (.inl rfl)
      (fun route source is => binds ⟨route, source, is⟩) nofun orderly).2.2

/-- A step adds the firing that it tells a handler to do. -/
theorem count_manual_step (orderly : s.Orderly) (handsOut : s.HandsOut) (h : Nat) (step : Step) :
    (s.step step).2.firings.count ⟨h, .manual⟩ =
      s.firings.count ⟨h, .manual⟩ + (s.told step).count h := by
  by_cases binds : ∃ route source, step = .bind route source
  · obtain ⟨route, source, rfl⟩ := binds
    exact (count_bind (.inr rfl) orderly route source).trans (if_neg nofun)
  by_cases told : h ∈ s.told step
  · cases step with
    | fire b place =>
      have handed : s.handedAt b place = some h := Option.mem_toList.mp told
      rw [step_fire, handed, Scene.told, handed]
      have fires : (setOff (reactWithin s.budget) s h .manual).firings.count ⟨h, .manual⟩ = _ :=
        count_fire (.inr rfl) orderly (handsOut.there handed) (.inr rfl)
      simpa using fires
    | _ => cases told
  · rw [List.count_eq_zero.mpr told]
    exact (leads_sameCount_step (.inr rfl) (fun route source is => binds ⟨route, source, is⟩)
      (fun _ => told) orderly).2.2

/-! ### Plays -/

/-- A handler fired once while it was bound, if what it waits for had happened before. -/
theorem count_past_after (orderly : s.Orderly) (h : Nat) (steps : List Step) :
    (s.after steps).firings.count ⟨h, .alreadyPast⟩ =
      if (s.bindsIn steps).any (·.firesAtOnce h) = true then 1
      else s.firings.count ⟨h, .alreadyPast⟩ := by
  induction steps generalizing s with
  | nil => rfl
  | cons step rest ih =>
    rw [after_cons, ih (orderly.step step).1, count_past_step orderly h step]
    simp only [bindsIn, along, List.any_append, Bool.or_eq_true]
    exact (ite_or ..).symm.trans (if_congr or_comm rfl rfl)

/-- A handler fired as often by hand as it was told to. -/
theorem count_manual_after (orderly : s.Orderly) (handsOut : s.HandsOut) (h : Nat)
    (steps : List Step) :
    (s.after steps).firings.count ⟨h, .manual⟩ =
      s.firings.count ⟨h, .manual⟩ + (s.toldIn steps).count h := by
  induction steps generalizing s with
  | nil => rfl
  | cons step rest ih =>
    rw [after_cons, ih (orderly.step step).1 (handsOut.step orderly step),
      count_manual_step orderly handsOut h step, Nat.add_assoc, ← List.count_append]
    rfl

/-- In every play, whatever effects set off, no firing of a handler is lost and none is done twice:
it fires once if it was bound too late for what it waits for, once for each event that the page
delivers to its listeners, once for each of its timers that elapses, once for each of its entries
that was seen, and once whenever it is told to. -/
theorem length_firingsOf_after (setup : Setup) (steps : List Step) {h : Nat} {handler : Handler}
    (known : (setup.start.after steps).handlers[h]? = some handler) :
    let s := setup.start.after steps
    (s.firingsOf h).length =
      (if (setup.start.bindsIn steps).any (·.firesAtOnce h) then 1 else 0) +
      s.events.count (.called (.event h)) +
      s.events.countP (Event.elapses h) +
      ((List.range handler.entries.length).countP fun e => .called (.see h e true) ∈ s.events) +
      (setup.start.toldIn steps).count h := by
  intro s
  have routine := occasions_after setup steps
  have past := count_past_after (orderly_start setup) h steps
  have manual := count_manual_after (orderly_start setup) ⟨nofun, nofun⟩ h steps
  have none (cause : Cause) : setup.start.firings.count ⟨h, cause⟩ = 0 := rfl
  rw [none] at past manual
  rw [firingsOf, ← List.countP_eq_length_filter, countP_handler_eq, past, manual,
    routine.count_event, routine.countP_isHold, countP_isReveal_after setup steps known,
    Nat.zero_add]

/-- A loaded page on which the first two effect calls load the window again. -/
def reloading : Setup :=
  { Setup.plain [("button", [1])]
      [("fall", ⟨fun _ _ call => if call < 2 then [.emit .global EventName.load] else []⟩)] 9 with
    loaded := true }

/-- A clause that waits for the window is bound, one that waits for a press, and one that waits for
a view. The window is loaded, the button is held and seen twice, and the first two handlers are told
to fire. -/
def loadedAgain : List Step :=
  let clause (name : String) : Clause := ⟨name, [⟨"text", "fall"⟩]⟩
  [.bind .engine (.blocks
      [⟨"button", [clause "window.load", clause "onhold.click", clause "reveal.onScroll"]⟩]),
    .page (.emit .global EventName.load), .press 1, .page (.advance (.ofMillis 500)),
    .page (.visibility 1 true), .page (.visibility 1 true), .fire 0 0, .fire 0 1]

/-- The first handler fires while it is bound, for both events that this sets off and for a third
one, and by hand; the second fires for its timer and by hand, and the third for the first view. -/
theorem length_firingsOf_loadedAgain :
    let s := reloading.start.after loadedAgain
    (List.range 3).map (fun h => (s.firingsOf h).length) = [5, 2, 1] ∧
      s.events.count (.called (.event 0)) = 3 ∧ s.events.countP (Event.elapses 1) = 1 ∧
      .called (.see 2 0 true) ∈ s.events ∧
      ∀ h < 3, ∃ handler, s.handlers[h]? = some handler ∧
        (s.firingsOf h).length =
          (if (reloading.start.bindsIn loadedAgain).any (·.firesAtOnce h) then 1 else 0) +
          s.events.count (.called (.event h)) +
          s.events.countP (Event.elapses h) +
          ((List.range handler.entries.length).countP fun e =>
            .called (.see h e true) ∈ s.events) +
          (reloading.start.toldIn loadedAgain).count h := by
  intro s
  have facts : s.handlers.length = 3 ∧
      (List.range 3).map (fun h => (s.firingsOf h).length) = [5, 2, 1] ∧
      s.events.count (.called (.event 0)) = 3 ∧ s.events.countP (Event.elapses 1) = 1 ∧
      .called (.see 2 0 true) ∈ s.events := by
    decide +kernel
  obtain ⟨three, fired, heard, elapsed, seen⟩ := facts
  refine ⟨fired, heard, elapsed, seen, fun h bound => ?_⟩
  have there : h < s.handlers.length := three.symm ▸ bound
  have known : s.handlers[h]? = some s.handlers[h] := List.getElem?_eq_getElem there
  exact ⟨_, known, length_firingsOf_after reloading loadedAgain known⟩

end Scene

end TriggerSheet
