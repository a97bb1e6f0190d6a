import TriggerSheet.Proofs.Scene.Move

/-!
# Orderly scenes

What fits together in every scene that a play reaches: the registrations of the page concern
handlers and entries that exist, an entry holds only a registration that was made for it, and no
firing or callback belongs to a handler that is yet to come.

## Main definitions

* `Scene.Extends` — a later scene has all that an earlier one has
* `Scene.Orderly` — page, handlers, firings and journal fit together

## Main results

* `Scene.extends_move` — a move takes nothing away
* `Scene.Orderly.move` — an orderly scene stays orderly
-/

namespace TriggerSheet.Scene

variable {s t u : Scene}

/-- A later scene has all that an earlier one has: its handlers, but for what they count and hold,
its firings, and its registrations. -/
structure Extends (s t : Scene) : Prop where
  setup : t.setup = s.setup
  handlers : s.handlers.map Handler.unfired <+: t.handlers.map Handler.unfired
  firings : s.firings <+: t.firings
  page : s.page.Extends t.page

theorem Extends.refl (s : Scene) : s.Extends s :=
  ⟨rfl, List.prefix_rfl, List.prefix_rfl, Page.Extends.refl _⟩

theorem Extends.trans (first : s.Extends t) (second : t.Extends u) : s.Extends u :=
  ⟨second.setup.trans first.setup, first.handlers.trans second.handlers,
    first.firings.trans second.firings, first.page.trans second.page⟩

theorem handler_of_prefix
    (all : s.handlers.map Handler.unfired <+: t.handlers.map Handler.unfired) {h : Nat}
    {handler : Handler} (known : s.handlers[h]? = some handler) :
    ∃ handler', t.handlers[h]? = some handler' ∧ handler'.unfired = handler.unfired := by
  obtain ⟨rest, all⟩ := all
  obtain ⟨bound, rfl⟩ := List.getElem?_eq_some_iff.mp known
  have there : (t.handlers.map Handler.unfired)[h]? = some (s.handlers[h]).unfired := by
    rw [← all, List.getElem?_append_left (by simpa using bound), List.getElem?_map, known]
    rfl
  rw [List.getElem?_map] at there
  exact Option.map_eq_some_iff.mp there

theorem hasEntry_of_prefix
    (all : s.handlers.map Handler.unfired <+: t.handlers.map Handler.unfired)
    {activation : Activation} {h e : Nat} (has : s.HasEntry activation h e) :
    t.HasEntry activation h e := by
  obtain ⟨handler, known, kind, bound⟩ := has
  obtain ⟨handler', known', same⟩ := handler_of_prefix all known
  have lengths := Handler.length_of_unfired same
  have kinds := congrArg (·.activation) same
  exact ⟨handler', known', kinds.trans kind, lengths ▸ bound⟩

theorem Extends.handler (later : s.Extends t) {h : Nat} {handler : Handler}
    (known : s.handlers[h]? = some handler) :
    ∃ handler', t.handlers[h]? = some handler' ∧ handler'.unfired = handler.unfired :=
  handler_of_prefix later.handlers known

theorem Extends.length_handlers (later : s.Extends t) : s.handlers.length ≤ t.handlers.length := by
  simpa using later.handlers.length_le

theorem Extends.hasEntry (later : s.Extends t) {activation : Activation} {h e : Nat}
    (has : s.HasEntry activation h e) : t.HasEntry activation h e :=
  hasEntry_of_prefix later.handlers has

/-- A later scene has no more entries of a handler than there were. -/
theorem Extends.hasEntry_of_lt (later : s.Extends t) {activation : Activation} {h e : Nat}
    (bound : h < s.handlers.length) (has : t.HasEntry activation h e) :
    s.HasEntry activation h e := by
  obtain ⟨handler', known', kind, lt⟩ := has
  obtain ⟨handler, known⟩ : ∃ handler, s.handlers[h]? = some handler :=
    ⟨_, List.getElem?_eq_getElem bound⟩
  obtain ⟨_, there, same⟩ := later.handler known
  cases known'.symm.trans there
  have lengths := Handler.length_of_unfired same
  exact ⟨handler, known, (congrArg (·.activation) same).symm.trans kind, lengths ▸ lt⟩

theorem Extends.isObserved (later : s.Extends t) {h e : Nat} (observed : s.IsObserved h e) :
    t.IsObserved h e := by
  obtain ⟨o, mem, rfl, rfl⟩ := observed
  obtain ⟨o', mem', same⟩ := later.page.observer mem
  exact ⟨o', mem', congrArg (·.handler) same, congrArg (·.entry) same⟩

/-- An observer that was made for an entry stays, whatever becomes of its activity. -/
theorem Extends.made (later : s.Extends t) {h e id : Nat}
    (made : ∃ o ∈ s.page.observers, o.id = id ∧ o.handler = h ∧ o.entry = e) :
    ∃ o ∈ t.page.observers, o.id = id ∧ o.handler = h ∧ o.entry = e := by
  obtain ⟨o, mem, rfl, rfl, rfl⟩ := made
  obtain ⟨o', mem', same⟩ := later.page.observer mem
  exact ⟨o', mem', congrArg (·.id) same, congrArg (·.handler) same, congrArg (·.entry) same⟩

theorem made_of_observe (s : Scene) (h e : Nat) (target : Target) (threshold : Binary64) :
    ∃ o ∈ (s.move (.observe h e target threshold)).page.observers,
      o.id = s.page.nextId ∧ o.handler = h ∧ o.entry = e :=
  ⟨⟨s.page.nextId, target, h, e, true⟩, by simp [move, Page.observe], rfl, rfl, rfl⟩

theorem Extends.fits (later : s.Extends t) {c : Callback} (fits : s.Fits c) : t.Fits c := by
  cases c with
  | event h => exact Nat.lt_of_lt_of_le fits later.length_handlers
  | press h e | release h e | elapse h e => exact later.hasEntry fits
  | see h e entered => exact later.isObserved fits

/-- Everything that has happened, in order. -/
def events (s : Scene) : List Event := s.journal.map (·.event)

/-! ### What a move changes -/

section Move

variable (s) (m : Move)

theorem move_setup : (s.move m).setup = s.setup := by
  cases m <;> simp [move, hold, modifyEntry, modifyHandler, cancel, listen, countFiring, log,
    opened_setup]

theorem move_listeners : (s.move m).page.listeners.map Listener.renewed =
    s.page.listeners.map Listener.renewed ++ s.newListeners m := by
  cases m <;> simp [move, newListeners, hold, modifyEntry, modifyHandler, cancel, listen,
    countFiring, log, opened_page, Page.listen, Page.observe, Page.schedule, Page.advance,
    Page.dropDue, Listener.renewed]

theorem move_observers : (s.move m).page.observers.map Observer.renewed =
    s.page.observers.map Observer.renewed ++ s.newObservers m := by
  cases m <;> simp [move, newObservers, hold, modifyEntry, modifyHandler, cancel, listen,
    countFiring, log, opened_page, Page.listen, Page.observe, Page.schedule, Page.advance,
    Page.dropDue, Observer.renewed]

theorem move_timers : (s.move m).page.timers.map Timer.renewed =
    s.page.timers.map Timer.renewed ++ s.newTimers m := by
  cases m <;> simp [move, newTimers, hold, modifyEntry, modifyHandler, cancel, listen,
    countFiring, log, opened_page, Page.listen, Page.observe, Page.schedule, Page.advance,
    Timer.renewed]

variable {s m} in
theorem listener_of_move {l : Listener} (mem : l ∈ (s.move m).page.listeners) :
    (∃ old ∈ s.page.listeners, old.renewed = l.renewed) ∨ l.renewed ∈ s.newListeners m := by
  have renewed := List.mem_map_of_mem (f := Listener.renewed) mem
  rw [move_listeners] at renewed
  exact (List.mem_append.mp renewed).imp_left List.mem_map.mp

variable {s m} in
theorem observer_of_move {o : Observer} (mem : o ∈ (s.move m).page.observers) :
    (∃ old ∈ s.page.observers, old.renewed = o.renewed) ∨ o.renewed ∈ s.newObservers m := by
  have renewed := List.mem_map_of_mem (f := Observer.renewed) mem
  rw [move_observers] at renewed
  exact (List.mem_append.mp renewed).imp_left List.mem_map.mp

variable {s m} in
theorem timer_of_move {t : Timer} (mem : t ∈ (s.move m).page.timers) :
    (∃ old ∈ s.page.timers, old.renewed = t.renewed) ∨ t.renewed ∈ s.newTimers m := by
  have renewed := List.mem_map_of_mem (f := Timer.renewed) mem
  rw [move_timers] at renewed
  exact (List.mem_append.mp renewed).imp_left List.mem_map.mp

theorem move_unfired : (s.move m).handlers.map Handler.unfired =
    s.handlers.map Handler.unfired ++ (newHandlers m).map Handler.unfired := by
  cases m with
  | listen | count =>
    simp [move, newHandlers, listen, countFiring, log, unfired_modifyHandler, Handler.unfired]
  | _ => simp [move, newHandlers, hold, cancel, unfired_modifyEntry, opened_handlers]

theorem move_firings_prefix : s.firings <+: (s.move m).firings := by
  -- Only the beginning of a firing adds one.
  cases m with
  | fire h cause =>
    simp only [move, opened]
    split
    · simp
    · simp [record, beginFiring]
  | _ =>
    simp [move, hold, modifyEntry, modifyHandler, cancel, listen, countFiring, log]

/-- A move takes nothing away. -/
theorem extends_move : s.Extends (s.move m) where
  setup := s.move_setup m
  handlers := s.move_unfired m ▸ List.prefix_append _ _
  firings := s.move_firings_prefix m
  page := ⟨s.move_listeners m ▸ List.prefix_append _ _, s.move_observers m ▸ List.prefix_append _ _,
    s.move_timers m ▸ List.prefix_append _ _⟩

theorem extends_enter (h : Nat) (cause : Cause) : s.Extends (s.enter h cause) where
  setup := s.enter_setup h cause
  handlers := (s.enter_unfired h cause).symm ▸ List.prefix_rfl
  firings := (s.enter_firings h cause).symm ▸ List.prefix_rfl
  page := ⟨(s.enter_listeners h cause).symm ▸ List.prefix_rfl,
    (s.enter_observers h cause).symm ▸ List.prefix_rfl,
    (s.enter_timers h cause).symm ▸ List.prefix_rfl⟩

theorem extends_opened (h : Nat) (cause : Cause) : s.Extends (s.opened h cause) where
  setup := s.opened_setup h cause
  handlers := (s.opened_handlers h cause).symm ▸ List.prefix_rfl
  firings := by
    unfold opened
    split
    · exact List.prefix_rfl
    · exact List.prefix_append _ _
  page := (s.opened_page h cause).symm ▸ Page.Extends.refl _

/-- What becomes of an entry in a move. -/
def onEntry (h e : Nat) (entry : Entry) : Move → Entry
  | .watch h' e' id => if h = h' ∧ e = e' then { entry with held := some id } else entry
  | .start h' e' _ => if h = h' ∧ e = e' then { entry with held := some s.page.nextId } else entry
  | .clear h' e' | .quit h' e' | .fire h' (.held e') =>
    if h = h' ∧ e = e' then { entry with held := none } else entry
  | .fire h' (.revealed e') => if h = h' ∧ e = e' then ⟨none, true⟩ else entry
  | _ => entry

theorem opened_entryAt? (h : Nat) (cause : Cause) (h' e : Nat) :
    (s.opened h cause).entryAt? h' e = s.entryAt? h' e := by
  rw [entryAt?, opened_handlers]
  rfl

theorem move_entryAt? {h : Nat} (known : h < s.handlers.length) (e : Nat) :
    (s.move m).entryAt? h e = (s.entryAt? h e).map (s.onEntry h e · m) := by
  -- A move changes one entry at most; its case tells whether it is this one.
  cases m with
  | add handler => simp [move, onEntry, entryAt?, List.getElem?_append_left known]
  | listen h' =>
    simp only [move, listen]
    rw [entryAt?_modifyHandler]
    · simp [onEntry, entryAt?]
    · exact fun _ => rfl
  | count h' =>
    simp only [move, countFiring, log, record_entryAt?]
    rw [entryAt?_modifyHandler]
    · simp [onEntry]
    · exact fun _ => rfl
  | watch h' e' id =>
    simp only [move, hold, entryAt?_modifyEntry, onEntry]
    split
    next hit => obtain ⟨rfl, rfl⟩ := hit; simp
    next miss => simp
  | start h' e' delay =>
    simp only [move, hold, entryAt?_modifyEntry, onEntry]
    split
    next hit => obtain ⟨rfl, rfl⟩ := hit; simp [entryAt?]
    next miss => simp [entryAt?]
  | clear h' e' | quit h' e' =>
    simp only [move, entryAt?_clear, onEntry]
    split
    next hit => obtain ⟨rfl, rfl⟩ := hit; simp
    next miss => simp
  | fire h' cause =>
    simp only [move, opened_entryAt?]
    cases cause with
    | held e' =>
      simp only [enter, hold, entryAt?_modifyEntry, onEntry]
      split
      next hit => obtain ⟨rfl, rfl⟩ := hit; simp
      next miss => simp
    | revealed e' =>
      simp only [enter, entryAt?_clear, entryAt?_modifyEntry, onEntry]
      split
      next hit => obtain ⟨rfl, rfl⟩ := hit; simp [Function.comp_def]
      next miss => simp
    | event | alreadyPast | manual => simp [enter, onEntry]
  | _ => simp [move, onEntry, entryAt?, cancel]

theorem move_handlers_length :
    (s.move m).handlers.length = s.handlers.length + (newHandlers m).length := by
  simpa using congrArg List.length (s.move_unfired m)

/-- The entry of a handler that is new holds nothing. -/
theorem move_held?_of_le (allowed : s.Allows m) {h : Nat} (new : s.handlers.length ≤ h) (e : Nat) :
    (s.move m).held? h e = none := by
  have length := s.move_handlers_length m
  cases m with
  | add handler =>
    rw [held?, entryAt?, move]
    simp only [List.getElem?_append_right new]
    cases known : [handler][h - s.handlers.length]? with
    | none => rfl
    | some handler' =>
      have eq : handler' = handler := List.mem_singleton.mp (List.mem_of_getElem? known)
      have fresh : handler.entries.map (fun _ => Entry.fresh) = handler.entries :=
        congrArg (·.entries) allowed
      rw [eq, Option.bind_some, ← fresh, List.getElem?_map]
      cases handler.entries[e]? <;> rfl
  | _ =>
    rw [held?, entryAt?, List.getElem?_eq_none (length ▸ new)]
    rfl

/-- The registration that an entry holds after a move was held before, or is the one that the move
gives it. -/
theorem held?_of_move (allowed : s.Allows m) {h e id : Nat}
    (held : (s.move m).held? h e = some id) :
    s.held? h e = some id ∨ m = .watch h e id ∨
      ∃ delay, m = .start h e delay ∧ id = s.page.nextId := by
  by_cases known : h < s.handlers.length
  swap
  · rw [s.move_held?_of_le m allowed (Nat.le_of_not_lt known)] at held
    cases held
  rw [held?, move_entryAt? s m known] at held
  obtain ⟨_, mapped, keeps⟩ := Option.bind_eq_some_iff.mp held
  obtain ⟨entry, before, rfl⟩ := Option.map_eq_some_iff.mp mapped
  -- But for the two moves that give a registration, what is held was held before.
  have same : entry.held = some id → s.held? h e = some id := fun old => by
    rw [held?, before]
    exact old
  cases m with
  | watch h' e' id' =>
    simp only [onEntry] at keeps
    split at keeps
    next hit =>
      obtain ⟨rfl, rfl⟩ := hit
      cases keeps
      exact .inr (.inl rfl)
    next => exact .inl (same keeps)
  | start h' e' delay =>
    simp only [onEntry] at keeps
    split at keeps
    next hit =>
      obtain ⟨rfl, rfl⟩ := hit
      cases keeps
      exact .inr (.inr ⟨delay, rfl, rfl⟩)
    next => exact .inl (same keeps)
  | clear h' e' | quit h' e' =>
    simp only [onEntry] at keeps
    split at keeps
    next => cases keeps
    next => exact .inl (same keeps)
  | fire h' cause =>
    cases cause with
    | held e' | revealed e' =>
      simp only [onEntry] at keeps
      split at keeps
      next => cases keeps
      next => exact .inl (same keeps)
    | event | alreadyPast | manual => exact .inl (same keeps)
  | _ => exact .inl (same keeps)

theorem move_numbered (numbered : s.page.Numbered) : (s.move m).page.Numbered := by
  -- Numbers are given out by registering only; all else keeps the ids as they are.
  cases m with
  | listen h scope event callback =>
    exact numbered.of_ids_perm (s.page.ids_listen scope event callback) rfl
  | observe h e target threshold => exact numbered.of_ids_perm (s.page.ids_observe target h e) rfl
  | start h e delay => exact numbered.of_ids_perm (s.page.ids_schedule delay h e) rfl
  | abandon h e id | mute h id => exact numbered.of_ids_eq (s.page.ids_cancel id) rfl
  | clear h e | quit h e => exact numbered.of_ids_eq (s.clear_ids h e) (s.clear_nextId h e)
  | advance time => exact numbered.of_ids_eq ((s.page.advance time).ids_dropDue) rfl
  | fire h cause =>
    have page : (s.move (.fire h cause)).page = (s.enter h cause).page := opened_page _ _ _
    rw [page]
    cases cause with
    | revealed e => exact numbered.of_ids_eq (clear_ids _ h e) (clear_nextId _ h e)
    | event | held e | alreadyPast | manual => exact numbered
  | turn => exact numbered.of_ids_eq rfl rfl
  | _ => exact numbered

theorem firing_of_move {f : Firing} (mem : f ∈ (s.move m).firings) :
    f ∈ s.firings ∨ ∃ h cause, m = .fire h cause ∧ f = ⟨h, cause⟩ := by
  cases m with
  | fire h cause =>
    simp only [move, opened] at mem
    split at mem
    · exact .inl (by simpa using mem)
    · simp only [record_firings, beginFiring, enter_firings, List.mem_append,
        List.mem_singleton] at mem
      exact mem.imp_right fun new => ⟨h, cause, rfl, new⟩
  | _ =>
    left
    simpa [move, hold, modifyEntry, modifyHandler, cancel, listen, countFiring, log] using mem

theorem move_fire_firings {h : Nat} (known : h < s.handlers.length) (cause : Cause) :
    (s.move (.fire h cause)).firings = s.firings ++ [⟨h, cause⟩] := by
  rw [move, opened_firings _ _ _ (s.enter_handlers_length h cause ▸ known), enter_firings]

/-- Of the moves, only its beginning counts as a firing. -/
theorem count_move {f : Firing} (other : m ≠ .fire f.handler f.cause) :
    (s.move m).firings.count f = s.firings.count f := by
  cases m with
  | fire h cause =>
    have differs : (⟨h, cause⟩ : Firing) ≠ f := fun same => other (by rw [← same])
    simp only [move, opened]
    split
    · rw [enter_firings]
    · simp [beginFiring, List.count_append, differs]
  | _ => simp [move, hold, modifyEntry, modifyHandler, cancel, listen, countFiring, log]

theorem move_listenerIds_of_ne (other : ∀ h scope event c, m ≠ .listen h scope event c)
    (old : ∀ handler, m ≠ .add handler) :
    (s.move m).handlers.map Handler.listeners = s.handlers.map Handler.listeners := by
  cases m with
  | add handler => exact absurd rfl (old handler)
  | listen h scope event c => exact absurd rfl (other h scope event c)
  | watch | start => exact s.listeners_modifyEntry _ _ _
  | clear h e | quit h e => exact s.clear_listenerIds h e
  | count h => exact map_modify_eq Handler.listeners _ (by intro; rfl) _ _
  | fire h cause =>
    simp only [move, opened_handlers]
    cases cause with
    | held e => exact (s.record _ _).listeners_modifyEntry h e _
    | revealed e =>
      simp only [enter, clear_listenerIds]
      exact (s.record _ _).listeners_modifyEntry h e _
    | event | alreadyPast | manual => rfl
  | _ => rfl

theorem listenerId_of_move (allowed : s.Allows m) {h id : Nat} {handler : Handler}
    (known : (s.move m).handlers[h]? = some handler) (mem : id ∈ handler.listeners) :
    (∃ handler', s.handlers[h]? = some handler' ∧ id ∈ handler'.listeners) ∨
      ∃ scope event c, m = .listen h scope event c ∧ id = s.page.nextId := by
  -- A handler gets ids by listening only; a new handler has none.
  by_cases listens : ∃ h' scope event c, m = .listen h' scope event c
  · obtain ⟨h', scope, event, c, rfl⟩ := listens
    simp only [move, listen, modifyHandler, record_handlers, List.getElem?_modify] at known
    obtain ⟨before, known', rfl⟩ := Option.map_eq_some_iff.mp known
    split at mem
    next hit =>
      subst hit
      rcases List.mem_append.mp mem with old | new
      · exact .inl ⟨before, known', old⟩
      · exact .inr ⟨scope, event, c, rfl, List.mem_singleton.mp new⟩
    next => exact .inl ⟨before, known', mem⟩
  by_cases adds : ∃ new, m = .add new
  · obtain ⟨new, rfl⟩ := adds
    simp only [move, List.getElem?_append] at known
    split at known
    · exact .inl ⟨handler, known, mem⟩
    · have eq : handler = new := List.mem_singleton.mp (List.mem_of_getElem? known)
      have none : new.listeners = [] := congrArg (·.listeners) allowed.symm
      rw [eq, none] at mem
      cases mem
  · have same := move_listenerIds_of_ne s m
      (fun h scope event c eq => listens ⟨h, scope, event, c, eq⟩) fun new eq => adds ⟨new, eq⟩
    have there : (s.handlers.map Handler.listeners)[h]? = some handler.listeners := by
      rw [← same, List.getElem?_map, known]
      rfl
    rw [List.getElem?_map] at there
    obtain ⟨handler', known', eq⟩ := Option.map_eq_some_iff.mp there
    exact .inl ⟨handler', known', eq ▸ mem⟩

/-- The events that a move notes, but for the query of a firing. -/
def newEvents : Move → List Event
  | .record _ event => [event]
  | .listen _ scope event _ => [.listen s.page.nextId scope event]
  | .observe _ _ target threshold => [.observe s.page.nextId target threshold]
  | .abandon _ _ id | .mute _ id => [.cancel id]
  | .start _ _ delay => [.schedule s.page.nextId delay]
  | .clear h e | .quit h e => (s.held? h e).toList.map .cancel
  | .see h e entered => [.called (.see h e entered)]
  | .fire h .event => [.called (.event h)]
  | .fire h (.held e) => [.called (.elapse h e)]
  | .fire h (.revealed e) => .called (.see h e true) :: (s.held? h e).toList.map .cancel
  | .count _ _ note => [.logged note]
  | _ => []

theorem clear_events (h e : Nat) :
    (s.clear h e).events = s.events ++ (s.held? h e).toList.map .cancel := by
  cases held : s.held? h e with
  | none => rw [clear_of_held?_eq_none held]; simp
  | some id =>
    rw [clear_of_held?_eq_some held]
    simp [events, cancel, record_journal, hold, modifyEntry, modifyHandler]

theorem enter_events (h : Nat) (cause : Cause) :
    (s.enter h cause).events = s.events ++ s.newEvents (.fire h cause) := by
  cases cause with
  | revealed e =>
    simp only [enter, clear_events, held?_reveal]
    simp [events, record_journal, modifyEntry, modifyHandler, newEvents]
  | event | held e | alreadyPast | manual =>
    simp [enter, events, record_journal, hold, modifyEntry, modifyHandler, newEvents]

theorem opened_events (h : Nat) (cause : Cause) :
    ∃ asked, (∀ event ∈ asked, Event.IsRemark event) ∧
      (s.opened h cause).events = s.events ++ asked := by
  unfold opened
  split
  · exact ⟨[], by simp, by simp⟩
  next handler _ =>
    refine ⟨[.query handler.selector (s.page.matching handler.selector)], ?_, ?_⟩
    · simp [Event.IsRemark]
    · simp [events, record_journal, beginFiring]

theorem move_events : ∃ asked, (∀ event ∈ asked, Event.IsRemark event) ∧
    (s.move m).events = s.events ++ s.newEvents m ++ asked := by
  -- A firing that begins may note its query on top of what it is told.
  cases m with
  | fire h cause =>
    obtain ⟨asked, remarks, eq⟩ := (s.enter h cause).opened_events h cause
    exact ⟨asked, remarks, by rw [move, eq, enter_events]⟩
  | clear h e | quit h e => exact ⟨[], by simp, by simp [move, newEvents, clear_events]⟩
  | _ =>
    refine ⟨[], by simp, ?_⟩
    simp [move, newEvents, events, record_journal, hold, modifyEntry, modifyHandler, cancel, listen,
      countFiring, log]

/-- What is seen is noted when it is told, and stays noted. -/
theorem seen_move {h e : Nat} {entered : Bool} :
    .called (.see h e entered) ∈ (s.move m).events ↔
      .called (.see h e entered) ∈ s.events ∨ .called (.see h e entered) ∈ s.newEvents m := by
  obtain ⟨asked, remarks, all⟩ := s.move_events m
  have none : Event.called (.see h e entered) ∉ asked := fun mem => remarks _ mem
  simp [all, none]

end Move

/-! ### Orderly scenes -/

/-- Page, handlers, firings and journal fit together. -/
structure Orderly (s : Scene) : Prop where
  numbered : s.page.Numbered
  listeners : ∀ l ∈ s.page.listeners, l.callback.IsListened ∧ s.Fits l.callback
  observers : ∀ o ∈ s.page.observers, s.HasEntry .reveal o.handler o.entry
  timers : ∀ t ∈ s.page.timers, s.HasEntry .hold t.handler t.entry
  /-- An entry holds a timer or an observation that was made for it. -/
  held : ∀ h e id, s.held? h e = some id →
    (∃ t ∈ s.page.timers, t.id = id ∧ t.handler = h ∧ t.entry = e) ∨
      ∃ o ∈ s.page.observers, o.id = id ∧ o.handler = h ∧ o.entry = e
  /-- A handler has the numbers of its own listeners. -/
  owned : ∀ h handler id, s.handlers[h]? = some handler → id ∈ handler.listeners →
    ∃ l ∈ s.page.listeners, l.id = id ∧ l.callback.handler = h
  firings : ∀ f ∈ s.firings, f.handler < s.handlers.length
  /-- Nothing was seen for a handler that is yet to come. -/
  seen : ∀ entry ∈ s.journal, ∀ h e entered, entry.event = .called (.see h e entered) →
    h < s.handlers.length
  /-- Nothing was cancelled that is yet to be registered. -/
  cancelled : ∀ id, .cancel id ∈ s.events → id ∈ s.page.ids

theorem orderly_start (setup : Setup) : setup.start.Orderly := by
  constructor <;> simp [Setup.start, held?, entryAt?, events]
  exact ⟨List.nodup_nil, by simp [Page.ids]⟩

theorem HasEntry.lt {activation : Activation} {h e : Nat} (has : s.HasEntry activation h e) :
    h < s.handlers.length := by
  obtain ⟨_, known, _⟩ := has
  exact (List.getElem?_eq_some_iff.mp known).1

theorem HasEntry.eq_of_hasEntry {a b : Activation} {h e : Nat} (has : s.HasEntry a h e)
    (has' : s.HasEntry b h e) : a = b := by
  obtain ⟨handler, known, rfl, _⟩ := has
  obtain ⟨handler', known', rfl, _⟩ := has'
  rw [Option.some.inj (known.symm.trans known')]

theorem HasEntry.exists_entryAt? {a : Activation} {h e : Nat} (has : s.HasEntry a h e) :
    ∃ entry, s.entryAt? h e = some entry := by
  obtain ⟨handler, known, _, bound⟩ := has
  refine ⟨handler.entries[e], ?_⟩
  rw [entryAt?, known, Option.bind_some, List.getElem?_eq_getElem bound]

theorem Orderly.hasEntry_of_isObserved (orderly : s.Orderly) {h e : Nat}
    (observed : s.IsObserved h e) : s.HasEntry .reveal h e := by
  obtain ⟨o, mem, rfl, rfl⟩ := observed
  exact orderly.observers o mem

theorem Orderly.lt_of_mayFire (orderly : s.Orderly) {h : Nat} {cause : Cause}
    (may : s.MayFire h cause) : h < s.handlers.length := by
  cases cause with
  | held e => exact HasEntry.lt may
  | revealed e => exact (orderly.hasEntry_of_isObserved may.1).lt
  | event | alreadyPast | manual => exact may

/-- What a move notes as seen concerns an entry of a revealing handler. -/
theorem Orderly.hasEntry_of_seen (orderly : s.Orderly) {m : Move} (allowed : s.Allows m) {h e : Nat}
    {entered : Bool} (seen : Event.called (.see h e entered) ∈ s.newEvents m) :
    s.HasEntry .reveal h e := by
  cases m with
  | record firing event =>
    rw [newEvents, List.mem_singleton] at seen
    exact (seen ▸ allowed.1 : Event.IsRemark (.called (.see h e entered))).elim
  | see h' e' entered' =>
    simp only [newEvents, List.mem_singleton, Event.called.injEq, Callback.see.injEq] at seen
    obtain ⟨rfl, rfl, rfl⟩ := seen
    exact orderly.hasEntry_of_isObserved allowed.1
  | fire h' cause =>
    cases cause with
    | revealed e' =>
      simp only [newEvents, List.mem_cons, Event.called.injEq, Callback.see.injEq, List.mem_map,
        reduceCtorEq, and_false, exists_false, or_false] at seen
      obtain ⟨rfl, rfl, rfl⟩ := seen
      exact orderly.hasEntry_of_isObserved allowed.1
    | event | held e' | alreadyPast | manual => simp [newEvents] at seen
  | _ => simp [newEvents] at seen

section Orderly

variable (orderly : s.Orderly) {m : Move} (allowed : s.Allows m)

include orderly allowed

theorem Orderly.listeners_move {l : Listener} (mem : l ∈ (s.move m).page.listeners) :
    l.callback.IsListened ∧ (s.move m).Fits l.callback := by
  rcases listener_of_move mem with ⟨old, mem', same⟩ | new
  · have callback : old.callback = l.callback := congrArg (·.callback) same
    obtain ⟨listened, fits⟩ := orderly.listeners old mem'
    exact callback ▸ ⟨listened, (s.extends_move m).fits fits⟩
  · -- A listener is made only with a callback that fits.
    cases m with
    | listen h scope event c =>
      have callback : l.callback = c := congrArg (·.callback) (List.mem_singleton.mp new)
      rw [callback]
      exact ⟨allowed.1, (s.extends_move _).fits allowed.2.2⟩
    | _ => cases new

theorem Orderly.observers_move {o : Observer} (mem : o ∈ (s.move m).page.observers) :
    (s.move m).HasEntry .reveal o.handler o.entry := by
  rcases observer_of_move mem with ⟨old, mem', same⟩ | new
  · have handler : old.handler = o.handler := congrArg (·.handler) same
    have entry : old.entry = o.entry := congrArg (·.entry) same
    exact handler ▸ entry ▸ (s.extends_move m).hasEntry (orderly.observers old mem')
  · cases m with
    | observe h e target threshold =>
      have handler : o.handler = h := congrArg (·.handler) (List.mem_singleton.mp new)
      have entry : o.entry = e := congrArg (·.entry) (List.mem_singleton.mp new)
      rw [handler, entry]
      exact (s.extends_move _).hasEntry allowed
    | _ => cases new

theorem Orderly.timers_move {t : Timer} (mem : t ∈ (s.move m).page.timers) :
    (s.move m).HasEntry .hold t.handler t.entry := by
  rcases timer_of_move mem with ⟨old, mem', same⟩ | new
  · have handler : old.handler = t.handler := congrArg (·.handler) same
    have entry : old.entry = t.entry := congrArg (·.entry) same
    exact handler ▸ entry ▸ (s.extends_move m).hasEntry (orderly.timers old mem')
  · cases m with
    | start h e delay =>
      have handler : t.handler = h := congrArg (·.handler) (List.mem_singleton.mp new)
      have entry : t.entry = e := congrArg (·.entry) (List.mem_singleton.mp new)
      rw [handler, entry]
      exact (s.extends_move _).hasEntry allowed.1
    | _ => cases new

theorem Orderly.held_move {h e id : Nat} (held : (s.move m).held? h e = some id) :
    (∃ t ∈ (s.move m).page.timers, t.id = id ∧ t.handler = h ∧ t.entry = e) ∨
      ∃ o ∈ (s.move m).page.observers, o.id = id ∧ o.handler = h ∧ o.entry = e := by
  -- What is held was made before and stays, or is made by the move.
  rcases s.held?_of_move m allowed held with old | rfl | ⟨delay, rfl, rfl⟩
  · rcases orderly.held h e id old with ⟨t, mem, rfl, rfl, rfl⟩ | made
    · obtain ⟨t', mem', same⟩ := (s.extends_move m).page.timer mem
      exact .inl ⟨t', mem', congrArg (·.id) same, congrArg (·.handler) same,
        congrArg (·.entry) same⟩
    · exact .inr ((s.extends_move m).made made)
  · exact .inr allowed
  · refine .inl ⟨⟨s.page.nextId, s.page.now.add delay, h, e, true⟩, ?_, rfl, rfl, rfl⟩
    simp [Scene.move, Page.schedule, hold, modifyEntry, modifyHandler]

theorem Orderly.owned_move {h id : Nat} {handler : Handler}
    (known : (s.move m).handlers[h]? = some handler) (mem : id ∈ handler.listeners) :
    ∃ l ∈ (s.move m).page.listeners, l.id = id ∧ l.callback.handler = h := by
  rcases s.listenerId_of_move m allowed known mem with
    ⟨handler', known', mem'⟩ | ⟨scope, event, c, rfl, rfl⟩
  · obtain ⟨l, there, rfl, rfl⟩ := orderly.owned h handler' id known' mem'
    obtain ⟨l', there', same⟩ := (s.extends_move m).page.listener there
    exact ⟨l', there', congrArg (·.id) same, congrArg (·.callback.handler) same⟩
  · refine ⟨⟨s.page.nextId, scope, event, c, true⟩, ?_, rfl, allowed.2.1⟩
    simp [Scene.move, listen, Page.listen, modifyHandler]

theorem Orderly.firings_move {f : Firing} (mem : f ∈ (s.move m).firings) :
    f.handler < (s.move m).handlers.length := by
  rcases s.firing_of_move m mem with old | ⟨h, cause, rfl, rfl⟩
  · exact Nat.lt_of_lt_of_le (orderly.firings f old) (s.extends_move m).length_handlers
  · exact Nat.lt_of_lt_of_le (orderly.lt_of_mayFire allowed) (s.extends_move _).length_handlers

theorem Orderly.seen_move {entry : JournalEntry} (mem : entry ∈ (s.move m).journal) {h e : Nat}
    {entered : Bool} (eq : entry.event = .called (.see h e entered)) :
    h < (s.move m).handlers.length := by
  have happened : Event.called (.see h e entered) ∈ (s.move m).events :=
    eq ▸ List.mem_map_of_mem mem
  rcases (Scene.seen_move s m).mp happened with old | new
  · -- What was seen before concerns a handler that is still there.
    obtain ⟨entry', mem', eq'⟩ := List.mem_map.mp old
    exact Nat.lt_of_lt_of_le (orderly.seen entry' mem' h e entered eq')
      (s.extends_move m).length_handlers
  · exact Nat.lt_of_lt_of_le (orderly.hasEntry_of_seen allowed new).lt
      (s.extends_move m).length_handlers

theorem Orderly.cancelled_move {id : Nat} (mem : .cancel id ∈ (s.move m).events) :
    id ∈ (s.move m).page.ids := by
  refine (s.extends_move m).page.ids ?_
  -- What a move cancels is registered: it was made for the entry that holds it, or is given.
  have ofHeld {h e : Nat} (held : .cancel id ∈ (s.held? h e).toList.map Event.cancel) :
      id ∈ s.page.ids := by
    obtain ⟨id', holds, same⟩ := List.mem_map.mp held
    cases same
    rcases orderly.held h e id (Option.mem_toList.mp holds) with
      ⟨t, there, rfl, -⟩ | ⟨o, there, rfl, -⟩
    · exact Page.id_timer_mem there
    · exact Page.id_observer_mem there
  obtain ⟨asked, remarks, grows⟩ := s.move_events m
  rw [grows, List.append_assoc] at mem
  rcases List.mem_append.mp mem with old | new
  · exact orderly.cancelled id old
  rcases List.mem_append.mp new with new | remark
  swap
  · exact (remarks _ remark).elim
  cases m with
  | record firing event =>
    rw [newEvents, List.mem_singleton] at new
    exact (new ▸ allowed.1 : Event.IsRemark (.cancel id)).elim
  | abandon h e id' =>
    cases List.mem_singleton.mp new
    obtain ⟨o, there, rfl, -⟩ := allowed
    exact Page.id_observer_mem there
  | mute h id' =>
    cases List.mem_singleton.mp new
    obtain ⟨l, there, rfl, -⟩ := allowed
    exact Page.id_listener_mem there
  | clear h e | quit h e => exact ofHeld new
  | fire h cause =>
    cases cause with
    | revealed e => exact ofHeld ((List.mem_cons.mp new).resolve_left nofun)
    | event | held e | alreadyPast | manual => simp [newEvents] at new
  | _ => simp [newEvents] at new

/-- An orderly scene stays orderly. -/
theorem Orderly.move : (s.move m).Orderly where
  numbered := s.move_numbered m orderly.numbered
  listeners _ mem := orderly.listeners_move allowed mem
  observers _ mem := orderly.observers_move allowed mem
  timers _ mem := orderly.timers_move allowed mem
  held _ _ _ held := orderly.held_move allowed held
  owned _ _ _ known mem := orderly.owned_move allowed known mem
  firings _ mem := orderly.firings_move allowed mem
  seen _ mem _ _ _ eq := orderly.seen_move allowed mem eq
  cancelled _ mem := orderly.cancelled_move allowed mem

end Orderly

end TriggerSheet.Scene
