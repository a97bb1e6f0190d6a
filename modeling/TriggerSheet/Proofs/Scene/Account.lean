import TriggerSheet.Proofs.Scene.Course

/-!
# The account of a firing

Firings nest: an effect of one can set off others, which change the page and note what they do in
the midst of it. What each of them notes itself is still what its clause says: one query, and then
the effect calls in order on what that query found, each behind its two gates.

## Main definitions

* `Handler.events` — what a handler does with the elements that it found
* `ownEntries` — what a firing notes itself
* `Handler.Accounts` — the entries of a firing are as its handler says
* `Scene.Adds` — what a part of a run adds to the journal

## Main results

* `Scene.adds_fires` — a firing accounts for itself, whatever its effects set off
* `Scene.audited_after` — in every play, all firings account for themselves
-/

namespace TriggerSheet

/-- What is noted of a diagnostic. -/
def Sink.event : Sink → Diagnostic → Event
  | journal, d => .diagnostic d
  | log, d => .logged (.diagnosed d)

/-- What one effect call does to the elements that were found, or why it is skipped. -/
def Call.events (effects : Registry Effect) (sink : Sink) (found : List Target)
    (property : String) (call : Call) : List Event :=
  match effects.lookup? call.name with
  | none => [sink.event (.unknownEffect call.name property)]
  | some _ =>
    if acceptsEffect property call.name then
      found.map fun target => .effect call.name target call.argument
    else [sink.event (.incompatibleEffect call.name property)]

/-- What an action does to the elements that were found. -/
def Action.events (effects : Registry Effect) (sink : Sink) (found : List Target)
    (action : Action) : List Event :=
  action.calls.flatMap (Call.events effects sink found action.property)

/-- What a handler does with the elements that its query found. -/
def Handler.events (handler : Handler) (effects : Registry Effect) (found : List Target) :
    List Event :=
  if found = [] then
    [handler.sink.event (.noMatchingTargets handler.selector handler.trigger)]
  else
    .logged (.fired handler.selector handler.trigger found.length) ::
      handler.actions.flatMap (Action.events effects handler.sink found)

/-- The entries of a journal that a firing noted itself. -/
def ownEntries (journal : List JournalEntry) (f : Nat) : List JournalEntry :=
  journal.filter (·.firing = some f)

/-- What the query of a firing found. -/
def foundBy (journal : List JournalEntry) (f : Nat) : List Target :=
  match (ownEntries journal f).head?.map (·.event) with
  | some (Event.query _ found) => found
  | _ => []

/-- A firing is one of a handler and found an element. -/
def isHit (firings : List Firing) (journal : List JournalEntry) (h f : Nat) : Bool :=
  firings[f]?.any (·.handler = h) && !(foundBy journal f).isEmpty

/-- The entries of a firing are one query and what its handler does with the elements found; if
there are any, the firing is counted before it calls an effect, and else it is not counted. -/
def Handler.Accounts (handler : Handler) (h : Nat) (effects : Registry Effect)
    (entries : List JournalEntry) : Prop :=
  ∃ found n,
    entries.map (·.event) = .query handler.selector found :: handler.events effects found ∧
    (entries.map (·.fired[h]?)).take 2 = [some n, some (if found = [] then n else n + 1)]

theorem ownEntries_append (journal rest : List JournalEntry) (f : Nat) :
    ownEntries (journal ++ rest) f = ownEntries journal f ++ ownEntries rest f :=
  List.filter_append ..

theorem ownEntries_eq_nil {journal : List JournalEntry} {f n : Nat} (le : n ≤ f)
    (bound : ∀ entry ∈ journal, ∀ g, entry.firing = some g → g < n) :
    ownEntries journal f = [] := by
  refine List.filter_eq_nil_iff.mpr fun entry mem own => ?_
  have := bound entry mem f (by simpa using own)
  omega

theorem Handler.Accounts.of_unfired {handler handler' : Handler} {h : Nat}
    {effects : Registry Effect} {entries : List JournalEntry}
    (accounts : handler.Accounts h effects entries) (same : handler'.unfired = handler.unfired) :
    handler'.Accounts h effects entries := by
  obtain ⟨found, n, events, counts⟩ := accounts
  refine ⟨found, n, events.trans ?_, counts⟩
  have selector : handler'.selector = handler.selector := congrArg (·.selector) same
  have trigger : handler'.trigger = handler.trigger := congrArg (·.trigger) same
  have sink : handler'.sink = handler.sink := congrArg (·.sink) same
  have actions : handler'.actions = handler.actions := congrArg (·.actions) same
  rw [Handler.events, Handler.events, selector, trigger, sink, actions]

namespace Scene

variable {s t u : Scene}

/-- How often a handler has fired; never, if it is yet to come. -/
def firedOf (s : Scene) (h : Nat) : Nat := (s.handlers[h]?.map (·.fired)).getD 0

/-- The part of a run from `s` to `t` adds `tail` to the journal, and `own` says what each firing
that had begun before notes in it. All firings that begin in this part account for themselves in
it, and handlers count those among them that found an element. -/
structure Adds (own : Nat → List Event) (s t : Scene) (tail : List JournalEntry) : Prop where
  later : s.Extends t
  journal : t.journal = s.journal ++ tail
  bound : ∀ entry ∈ tail, ∀ f, entry.firing = some f → f < t.firings.length
  old : ∀ f < s.firings.length, (ownEntries tail f).map (·.event) = own f
  new : ∀ f firing, s.firings.length ≤ f → t.firings[f]? = some firing →
    ∃ handler, t.handlers[firing.handler]? = some handler ∧
      handler.Accounts firing.handler t.setup.effects (ownEntries tail f)
  fired : ∀ h, t.firedOf h = s.firedOf h +
    (List.range' s.firings.length (t.firings.length - s.firings.length)).countP
      (isHit t.firings tail h)
  effects : ∀ entry ∈ tail, entry.event.IsEffect → entry.firing ≠ none

/-- One firing notes some events, and no other that had begun before notes any. -/
def only (f : Nat) (events : List Event) (g : Nat) : List Event := if g = f then events else []

theorem only_nil (f : Nat) : only f [] = fun _ => [] := by
  funext g
  simp [only]

theorem only_append (f : Nat) (events events' : List Event) :
    only f (events ++ events') = fun g => only f events g ++ only f events' g := by
  funext g
  unfold only
  split <;> rfl

/-! ### Runs in which no firing begins -/

/-- Nothing happens that belongs to a firing. -/
structure Silent (s t : Scene) : Prop where
  firings : t.firings = s.firings
  journal : ∃ tail, t.journal = s.journal ++ tail ∧
    ∀ entry ∈ tail, entry.firing = none ∧ ¬entry.event.IsEffect
  fired : ∀ h, t.firedOf h = s.firedOf h

theorem Silent.trans (first : s.Silent t) (second : t.Silent u) : s.Silent u := by
  obtain ⟨tail, journal, silent⟩ := first.journal
  obtain ⟨tail', journal', silent'⟩ := second.journal
  refine ⟨second.firings.trans first.firings, ⟨tail ++ tail', ?_, ?_⟩,
    fun h => (second.fired h).trans (first.fired h)⟩
  · rw [journal', journal, List.append_assoc]
  · intro entry mem
    exact (List.mem_append.mp mem).elim (silent entry) (silent' entry)

theorem silent_of_eq (firings : t.firings = s.firings) (journal : t.journal = s.journal)
    (fired : t.handlers.map (·.fired) = s.handlers.map (·.fired)) : s.Silent t := by
  refine ⟨firings, ⟨[], by rw [journal, List.append_nil], by simp⟩, fun h => ?_⟩
  rw [firedOf, firedOf, ← List.getElem?_map, ← List.getElem?_map, fired]

theorem silent_record (s : Scene) (event : Event) (still : ¬event.IsEffect) :
    s.Silent (s.record none event) :=
  ⟨rfl, ⟨_, s.record_journal none event, by simpa using still⟩, fun _ => rfl⟩

theorem silent_modifyEntry (s : Scene) (h e : Nat) (f : Entry → Entry) :
    s.Silent (s.modifyEntry h e f) :=
  silent_of_eq rfl rfl (s.fired_modifyEntry h e f)

theorem silent_cancel (s : Scene) (id : Nat) : s.Silent (s.cancel id) :=
  Silent.trans (silent_of_eq (s := s) (t := { s with page := s.page.cancel id }) rfl rfl rfl)
    (silent_record _ (.cancel id) False.elim)

theorem silent_clear (s : Scene) (h e : Nat) : s.Silent (s.clear h e) := by
  unfold clear
  split
  · exact (s.silent_modifyEntry h e _).trans (silent_cancel _ _)
  · exact silent_of_eq rfl rfl rfl

/-- Before its firing begins, nothing that a callback does belongs to a firing. -/
theorem silent_enter (s : Scene) (h : Nat) (cause : Cause) : s.Silent (s.enter h cause) := by
  cases cause with
  | event => exact s.silent_record (.called (.event h)) False.elim
  | held e =>
    exact (s.silent_record (.called (.elapse h e)) False.elim).trans (silent_modifyEntry _ h e _)
  | revealed e =>
    have told := s.silent_record (.called (.see h e true)) False.elim
    exact (told.trans (silent_modifyEntry _ h e _)).trans (silent_clear _ h e)
  | alreadyPast | manual => exact silent_of_eq rfl rfl rfl

/-- The moves that belong to no firing. -/
def IsSilent : Move → Prop
  | .fire _ _ | .count _ _ _ | .record (some _) _ => False
  | _ => True

theorem silent_move {m : Move} (silent : IsSilent m) (allowed : s.Allows m) :
    s.Silent (s.move m) := by
  cases m with
  | record firing event =>
    cases firing with
    | none => exact s.silent_record event fun is => allowed.2.2 is rfl
    | some f => exact silent.elim
  | add handler =>
    have fresh : handler.fired = 0 := congrArg (·.fired) allowed.symm
    refine ⟨rfl, ⟨[], (List.append_nil _).symm, by simp⟩, fun h => ?_⟩
    rw [firedOf, firedOf, move, List.getElem?_append]
    split
    · rfl
    next new =>
      -- A handler that is new has fired as often as one that is yet to come.
      rw [List.getElem?_eq_none (Nat.le_of_not_lt new)]
      rcases h - s.handlers.length with _ | i
      · simp [fresh]
      · simp
  | listen h scope event callback =>
    refine (Silent.trans (silent_of_eq (s := s)
      (t := { s with page := s.page.listen scope event callback }) rfl rfl rfl)
      (silent_record _ (.listen s.page.nextId scope event) False.elim)).trans ?_
    -- The handler comes to know its listener, and has fired as often as before.
    exact silent_of_eq rfl rfl (map_modify_eq Handler.fired _ (by intro; rfl) _ _)
  | observe h e target threshold =>
    exact Silent.trans (silent_of_eq (s := s)
      (t := { s with page := s.page.observe target h e }) rfl rfl rfl)
      (silent_record _ (.observe s.page.nextId target threshold) False.elim)
  | start h e delay =>
    exact (Silent.trans (silent_of_eq (s := s)
      (t := { s with page := s.page.schedule delay h e }) rfl rfl rfl)
      (silent_record _ (.schedule s.page.nextId delay) False.elim)).trans
      (silent_modifyEntry _ h e _)
  | watch h e id => exact s.silent_modifyEntry h e _
  | abandon h e id | mute h id => exact s.silent_cancel id
  | clear h e | quit h e => exact s.silent_clear h e
  | see h e entered => exact s.silent_record (.called (.see h e entered)) False.elim
  | turn | spend | rebind | advance => exact silent_of_eq rfl rfl rfl
  | fire | count => exact silent.elim

/-! ### Parts of a run -/

/-- A part in which no firing begins or goes on adds nothing to any. -/
theorem Silent.adds (silent : s.Silent t) (later : s.Extends t) :
    ∃ tail, s.Adds (fun _ => []) t tail := by
  obtain ⟨tail, journal, none⟩ := silent.journal
  -- No firing has an entry in this part.
  have own (f : Nat) : ownEntries tail f = [] :=
    List.filter_eq_nil_iff.mpr fun entry mem => by simp [(none entry mem).1]
  refine ⟨tail, later, journal, ?_, fun f _ => by rw [own f]; rfl, ?_, ?_, ?_⟩
  · intro entry mem f is
    rw [(none entry mem).1] at is
    cases is
  · intro f firing le known
    rw [silent.firings] at known
    have := (List.getElem?_eq_some_iff.mp known).1
    omega
  · intro h
    rw [silent.firings, Nat.sub_self, silent.fired h]
    rfl
  · intro entry mem is
    exact ((none entry mem).2 is).elim

theorem adds_refl (s : Scene) : s.Adds (fun _ => []) s [] := by
  refine ⟨Extends.refl s, (List.append_nil _).symm, by simp, fun _ _ => rfl, ?_, ?_, by simp⟩
  · intro f firing le known
    have := (List.getElem?_eq_some_iff.mp known).1
    omega
  · intro h
    rw [Nat.sub_self]
    rfl

section FoundBy

variable {own own' : Nat → List Event} {tail tail' : List JournalEntry}

theorem Adds.own_eq_nil (adds : s.Adds own t tail) {f : Nat} (lt : f < s.firings.length)
    (still : own f = []) : ownEntries tail f = [] :=
  List.map_eq_nil_iff.mp ((adds.old f lt).trans still)

/-- What a firing found is in the part in which it began. -/
theorem Adds.foundBy_append_left (adds : t.Adds own' u tail') {f : Nat}
    (lt : f < t.firings.length) (still : own' f = []) :
    foundBy (tail ++ tail') f = foundBy tail f := by
  rw [foundBy, ownEntries_append, adds.own_eq_nil lt still, List.append_nil, foundBy]

theorem Adds.foundBy_append_right (adds : s.Adds own t tail) {f : Nat}
    (le : t.firings.length ≤ f) : foundBy (tail ++ tail') f = foundBy tail' f := by
  rw [foundBy, ownEntries_append, ownEntries_eq_nil le adds.bound, List.nil_append,
    foundBy]

end FoundBy

theorem range'_eq_append {l m n : Nat} (le : l ≤ m) (le' : m ≤ n) :
    List.range' l (n - l) = List.range' l (m - l) ++ List.range' m (n - m) := by
  obtain ⟨i, rfl⟩ := Nat.exists_eq_add_of_le le
  obtain ⟨j, rfl⟩ := Nat.exists_eq_add_of_le le'
  rw [Nat.add_sub_cancel_left, Nat.add_sub_cancel_left, List.range'_append_1]
  congr 1
  omega

section Trans

variable {own own' : Nat → List Event} {tail tail' : List JournalEntry}
  (first : s.Adds own t tail) (second : t.Adds own' u tail')
  (still : ∀ f, s.firings.length ≤ f → own' f = [])

include first second still

/-- The firings that begin in either of two parts account for themselves in both together. -/
theorem Adds.accounts_trans {f : Nat} {firing : Firing} (le : s.firings.length ≤ f)
    (known : u.firings[f]? = some firing) :
    ∃ handler, u.handlers[firing.handler]? = some handler ∧
      handler.Accounts firing.handler u.setup.effects (ownEntries (tail ++ tail') f) := by
  rw [ownEntries_append]
  by_cases lt : f < t.firings.length
  · -- The firing began in the first part and ended there.
    have known' : t.firings[f]? = some firing := by
      obtain ⟨rest, all⟩ := second.later.firings
      rw [← known, ← all, List.getElem?_append_left lt]
    obtain ⟨handler, there, accounts⟩ := first.new f firing le known'
    obtain ⟨handler', there', same⟩ := second.later.handler there
    rw [second.own_eq_nil lt (still f le), List.append_nil, second.later.setup]
    exact ⟨handler', there', accounts.of_unfired same⟩
  · -- It began in the second part, and the first knows nothing of it.
    have le' := Nat.le_of_not_lt lt
    rw [ownEntries_eq_nil le' first.bound, List.nil_append]
    exact second.new f firing le' known

/-- The hits of two parts are those of each of them. -/
theorem Adds.countP_isHit (h : Nat) :
    (List.range' s.firings.length (u.firings.length - s.firings.length)).countP
      (isHit u.firings (tail ++ tail') h) =
    (List.range' s.firings.length (t.firings.length - s.firings.length)).countP
      (isHit t.firings tail h) +
    (List.range' t.firings.length (u.firings.length - t.firings.length)).countP
      (isHit u.firings tail' h) := by
  rw [range'_eq_append first.later.firings.length_le second.later.firings.length_le,
    List.countP_append]
  congr 1
  · -- What a firing of the first part found is not changed by the second.
    refine List.countP_congr fun f mem => ?_
    obtain ⟨low, high⟩ := List.mem_range'_1.mp mem
    have lt : f < t.firings.length := by omega
    obtain ⟨rest, all⟩ := second.later.firings
    rw [isHit, isHit, ← all, List.getElem?_append_left lt,
      second.foundBy_append_left lt (still f low)]
  · -- A firing of the second part found nothing in the first.
    refine List.countP_congr fun f mem => ?_
    have low := (List.mem_range'_1.mp mem).1
    rw [isHit, isHit, first.foundBy_append_right low]

theorem Adds.trans : s.Adds (fun f => own f ++ own' f) u (tail ++ tail') where
  later := first.later.trans second.later
  journal := by rw [second.journal, first.journal, List.append_assoc]
  bound := by
    intro entry mem f is
    rcases List.mem_append.mp mem with mem | mem
    · exact Nat.lt_of_lt_of_le (first.bound entry mem f is) second.later.firings.length_le
    · exact second.bound entry mem f is
  old := by
    intro f lt
    have lt' := Nat.lt_of_lt_of_le lt first.later.firings.length_le
    rw [ownEntries_append, List.map_append, first.old f lt, second.old f lt']
  new _ _ le known := first.accounts_trans second still le known
  fired := by
    intro h
    rw [second.fired h, first.fired h, first.countP_isHit second still h, Nat.add_assoc]
  effects := by
    intro entry mem
    exact (List.mem_append.mp mem).elim (first.effects entry) (second.effects entry)

end Trans

/-! ### One firing -/

/-- A part of a run adds only what firings that begin in it do. -/
def AddsNew (s t : Scene) : Prop := ∃ tail, s.Adds (fun _ => []) t tail

/-- In a part of a run a firing that began before notes some events, and no other does. -/
def AddsTo (f : Nat) (events : List Event) (s t : Scene) : Prop :=
  ∃ tail, s.Adds (only f events) t tail

theorem chained_addsNew : Chained AddsNew where
  refl s := ⟨[], adds_refl s⟩
  trans := by
    rintro s t u - ⟨tail, adds⟩ ⟨tail', adds'⟩
    exact ⟨_, adds.trans adds' fun _ _ => rfl⟩

theorem addsTo_refl (f : Nat) (s : Scene) : AddsTo f [] s s :=
  ⟨[], only_nil f ▸ adds_refl s⟩

theorem leads_addsTo_nil {f : Nat} (leads : s.Leads AddsNew t) : s.Leads (AddsTo f []) t := by
  intro orderly
  obtain ⟨orderly', later, tail, adds⟩ := leads orderly
  exact ⟨orderly', later, tail, only_nil f ▸ adds⟩

theorem leads_addsTo_append {f : Nat} {events events' : List Event}
    (bound : f < s.firings.length) (first : s.Leads (AddsTo f events) t)
    (second : t.Leads (AddsTo f events') u) : s.Leads (AddsTo f (events ++ events')) u := by
  intro orderly
  obtain ⟨orderly', later, tail, adds⟩ := first orderly
  obtain ⟨orderly'', later', tail', adds'⟩ := second orderly'
  refine ⟨orderly'', later.trans later', tail ++ tail', only_append f events events' ▸ ?_⟩
  -- Only `f` notes the later events, and it began before both parts.
  refine adds.trans adds' fun g le => if_neg fun eq => ?_
  omega

/-- The parts of a run that come one after the other note their events one after the other. -/
theorem leads_addsTo_foldl {α : Type} {step : Scene → α → Scene} {events : α → List Event}
    {f : Nat} {effects : Registry Effect} (l : List α)
    (each : ∀ a ∈ l, ∀ t : Scene, f < t.firings.length → t.setup.effects = effects →
      t.Leads (AddsTo f (events a)) (step t a))
    (s : Scene) (bound : f < s.firings.length) (same : s.setup.effects = effects) :
    s.Leads (AddsTo f (l.flatMap events)) (l.foldl step s) := by
  -- At every stage the firing has begun, and the effects are those of the setup.
  induction l generalizing s with
  | nil => exact leads_addsTo_nil (chained_addsNew.leads_refl s)
  | cons a l ih =>
    intro orderly
    have first := each a (List.mem_cons_self ..) s bound same
    have later := (first orderly).2.1
    have rest := ih (fun b mem => each b (List.mem_cons_of_mem _ mem)) (step s a)
      (Nat.lt_of_lt_of_le bound later.firings.length_le) (later.setup ▸ same)
    exact leads_addsTo_append bound first rest orderly

section Firing

variable {react : Reaction} (admits : Admits AddsNew react) {h f : Nat}

/-- What a firing notes itself is added to its entries. -/
theorem leads_addsTo_record (event : Event) (remark : event.IsRemark)
    (bound : f < s.firings.length) :
    s.Leads (AddsTo f [event]) (s.record (some f) event) := by
  intro orderly
  have later := s.extends_move (.record (some f) event)
  refine ⟨orderly.move (m := .record (some f) event)
    ⟨remark, fun _ eq => Option.some.inj eq ▸ bound, fun _ => by simp⟩, later, _, later,
    s.record_journal (some f) event, ?_, ?_, ?_, ?_, by simp⟩
  · simpa using bound
  · -- The entry belongs to `f`, and to no other firing.
    intro g lt
    by_cases eq : g = f
    · simp [ownEntries, only, eq]
    · simp [ownEntries, only, eq, Ne.symm eq]
  · intro g firing le known
    have := (List.getElem?_eq_some_iff.mp known).1
    rw [record_firings] at this
    omega
  · intro h
    rw [record_firings, Nat.sub_self]
    rfl

theorem leads_addsTo_report (sink : Sink) (d : Diagnostic) (bound : f < s.firings.length) :
    s.Leads (AddsTo f [sink.event d]) (s.report (some f) sink d) := by
  cases sink <;> exact leads_addsTo_record _ trivial bound

include admits

theorem leads_addsTo_call {effects : Registry Effect} (sink : Sink)
    (found : List Target) (property : String) (call : Call) (bound : f < s.firings.length)
    (same : s.setup.effects = effects) :
    s.Leads (AddsTo f (call.events effects sink found property))
      (runCall react f sink found property s call) := by
  unfold runCall Call.events
  rw [same]
  cases known : effects.lookup? call.name with
  | none => exact leads_addsTo_report _ _ bound
  | some effect =>
    dsimp only
    split
    · have single : (found.map fun target => Event.effect call.name target call.argument) =
          found.flatMap fun target => [.effect call.name target call.argument] := by
        rw [List.map_eq_flatMap]
      rw [single]
      refine leads_addsTo_foldl found (fun target _ t bound same => ?_) s bound same
      -- The call is noted before its effect takes its page steps, which note nothing for it.
      have noted := leads_addsTo_record (.effect call.name target call.argument) trivial bound
      have takes : t.setup.Takes (effect.steps target call.argument t.calls) :=
        ⟨call.name, effect, same ▸ known, target, call.argument, t.calls, rfl⟩
      exact leads_addsTo_append bound noted (leads_addsTo_nil (admits _ _ takes))
    · exact leads_addsTo_report _ _ bound

theorem leads_addsTo_actions {effects : Registry Effect} (sink : Sink)
    (found : List Target) (actions : List Action) (bound : f < s.firings.length)
    (same : s.setup.effects = effects) :
    s.Leads (AddsTo f (actions.flatMap (Action.events effects sink found)))
      (actions.foldl (runAction react f sink found) s) :=
  leads_addsTo_foldl actions (fun action _ t bound same =>
    leads_addsTo_foldl action.calls (fun call _ _ bound same =>
      leads_addsTo_call admits sink found action.property call bound same) t bound same)
    s bound same

end Firing

/-- The first two entries of a firing that begins at `s` and has answered its query by `t`. -/
def opening (s t : Scene) (handler : Handler) (found : List Target) (answer : Event) :
    List JournalEntry :=
  [⟨some s.firings.length, .query handler.selector found, s.handlers.map (·.fired)⟩,
    ⟨some s.firings.length, answer, t.handlers.map (·.fired)⟩]

theorem ownEntries_opening (s t : Scene) (handler : Handler) (found : List Target) (answer : Event)
    (f : Nat) :
    ownEntries (opening s t handler found answer) f =
      if f = s.firings.length then opening s t handler found answer else [] := by
  split
  next own => simp [ownEntries, opening, own]
  next other => simp [ownEntries, opening, Ne.symm other]

/-- A firing of a handler has begun at `s`, asked its query, and answered what it found by `t`;
`rest` is what it still has to do. -/
structure Opens (h : Nat) (cause : Cause) (handler : Handler) (found : List Target) (answer : Event)
    (rest : List Event) (s t : Scene) : Prop where
  later : s.Extends t
  known : s.handlers[h]? = some handler
  does : handler.events s.setup.effects found = answer :: rest
  firings : t.firings = s.firings ++ [⟨h, cause⟩]
  journal : t.journal = s.journal ++ opening s t handler found answer
  fired : ∀ h', t.firedOf h' = s.firedOf h' + if h' = h ∧ found ≠ [] then 1 else 0

section Opens

variable {h : Nat} {cause : Cause} {handler : Handler} {found : List Target} {answer : Event}
  {rest : List Event} {tail : List JournalEntry}

theorem firedOf_of_known (known : s.handlers[h]? = some handler) :
    (s.handlers.map (·.fired))[h]? = some (s.firedOf h) := by
  rw [List.getElem?_map, firedOf, known]
  rfl

theorem Opens.length (opens : Opens h cause handler found answer rest s t) :
    t.firings.length = s.firings.length + 1 := by
  rw [opens.firings, List.length_append]
  rfl

theorem Opens.begun (opens : Opens h cause handler found answer rest s t) (later : t.Extends u) :
    u.firings[s.firings.length]? = some ⟨h, cause⟩ := by
  obtain ⟨more, all⟩ := later.firings
  rw [← all, opens.firings, List.append_assoc, List.getElem?_append_right (Nat.le_refl _),
    Nat.sub_self]
  rfl

/-- The entries of a firing that has opened and then done the rest are as its handler says. -/
theorem Opens.accounts (opens : Opens h cause handler found answer rest s t)
    (own : (ownEntries tail s.firings.length).map (·.event) = rest) :
    handler.Accounts h s.setup.effects
      (ownEntries (opening s t handler found answer ++ tail) s.firings.length) := by
  obtain ⟨handler', there, _⟩ := opens.later.handler opens.known
  have before := firedOf_of_known opens.known
  have after := firedOf_of_known there
  rw [opens.fired h] at after
  -- The query is noted with the old count, and what answers it with the new one.
  refine ⟨found, s.firedOf h, ?_, ?_⟩
  · rw [opens.does, ← own, ownEntries_append, ownEntries_opening, if_pos rfl]
    rfl
  · rw [ownEntries_append, ownEntries_opening, if_pos rfl]
    by_cases none : found = []
    · simp [opening, before, after, none]
    · simp [opening, before, after, none]

/-- A firing that has opened is a hit if its query found something. -/
theorem Opens.isHit (opens : Opens h cause handler found answer rest s t) (later : t.Extends u)
    (h' : Nat) :
    isHit u.firings (opening s t handler found answer ++ tail) h' s.firings.length =
      decide (h' = h ∧ found ≠ []) := by
  have asked : foundBy (opening s t handler found answer ++ tail) s.firings.length = found := by
    rw [foundBy, ownEntries_append, ownEntries_opening, if_pos rfl]
    rfl
  rw [TriggerSheet.isHit, opens.begun later, asked]
  by_cases own : h' = h
  · subst own
    cases found <;> simp
  · simp [own, Ne.symm own]

/-- The firing that has opened is counted first, and then those that begin behind it. -/
theorem Opens.countP_isHit (opens : Opens h cause handler found answer rest s t)
    (later : t.Extends u) (h' : Nat) :
    (List.range' s.firings.length (u.firings.length - s.firings.length)).countP
      (TriggerSheet.isHit u.firings (opening s t handler found answer ++ tail) h') =
    (if h' = h ∧ found ≠ [] then 1 else 0) +
      (List.range' t.firings.length (u.firings.length - t.firings.length)).countP
        (TriggerSheet.isHit u.firings tail h') := by
  have length := opens.length
  have le := later.firings.length_le
  have first : List.range' s.firings.length (t.firings.length - s.firings.length) =
      [s.firings.length] := by
    rw [length, Nat.add_sub_cancel_left]
    rfl
  -- What opens a firing is not known to those behind it.
  have others : ∀ g ∈ List.range' t.firings.length (u.firings.length - t.firings.length),
      (TriggerSheet.isHit u.firings (opening s t handler found answer ++ tail) h' g = true ↔
        TriggerSheet.isHit u.firings tail h' g = true) := by
    intro g mem
    have low := (List.mem_range'_1.mp mem).1
    rw [TriggerSheet.isHit, TriggerSheet.isHit, foundBy, foundBy, ownEntries_append,
      ownEntries_opening, if_neg (by omega), List.nil_append]
  have low : s.firings.length ≤ t.firings.length := by omega
  rw [range'_eq_append low le, first, List.countP_append, List.countP_singleton,
    opens.isHit later, List.countP_congr others]
  simp only [decide_eq_true_eq]

/-- A firing that has opened and then done the rest accounts for itself. -/
theorem Opens.addsNew (opens : Opens h cause handler found answer rest s t)
    (goes : AddsTo s.firings.length rest t u) : s.AddsNew u := by
  obtain ⟨tail, adds⟩ := goes
  have length := opens.length
  have le := adds.later.firings.length_le
  have later := opens.later.trans adds.later
  refine ⟨opening s t handler found answer ++ tail, later, ?_, ?_, ?_, ?_, ?_, ?_⟩
  · rw [adds.journal, opens.journal, List.append_assoc]
  · intro entry mem g is
    rcases List.mem_append.mp mem with first | mem
    · have : some s.firings.length = some g := by
        rcases (by simpa [opening] using first) with rfl | rfl <;> exact is
      cases this
      omega
    · exact adds.bound entry mem g is
  · -- A firing that began before has no part in this one.
    intro g lt
    have none : ownEntries tail g = [] := adds.own_eq_nil (by omega) (if_neg (by omega))
    rw [ownEntries_append, none, ownEntries_opening, if_neg (by omega)]
    rfl
  · intro g firing ge known
    rw [later.setup]
    -- Of the firings that are new, one has just opened, and the rest began behind it.
    by_cases this : g = s.firings.length
    · subst this
      cases known.symm.trans (opens.begun adds.later)
      obtain ⟨handler', there, same⟩ := later.handler opens.known
      have own := (adds.old s.firings.length (by omega)).trans (if_pos rfl)
      exact ⟨handler', there, (opens.accounts own).of_unfired same⟩
    · obtain ⟨handler', there, accounts⟩ := adds.new g firing (by omega) known
      rw [ownEntries_append, ownEntries_opening, if_neg this, List.nil_append,
        ← opens.later.setup, ← adds.later.setup]
      exact ⟨handler', there, accounts⟩
  · intro h'
    rw [adds.fired h', opens.fired h', opens.countP_isHit adds.later, Nat.add_assoc]
  · intro entry mem is
    rcases List.mem_append.mp mem with first | mem
    · rcases (by simpa [opening] using first) with rfl | rfl <;> simp
    · exact adds.effects entry mem is

end Opens

theorem firedOf_count {h : Nat} {handler : Handler} (known : s.handlers[h]? = some handler)
    (firing : Option Nat) (note : Note) (h' : Nat) :
    ((s.countFiring h).log firing note).firedOf h' = s.firedOf h' + if h' = h then 1 else 0 := by
  rw [firedOf, firedOf, log, record_handlers, countFiring, modifyHandler, List.getElem?_modify]
  by_cases own : h' = h
  · subst own
    simp [known]
  · simp [own, Ne.symm own]

theorem opens_of_nil {h : Nat} {handler : Handler} (known : s.handlers[h]? = some handler)
    (cause : Cause) (none : s.page.matching handler.selector = []) :
    Opens h cause handler []
      (handler.sink.event (.noMatchingTargets handler.selector handler.trigger)) []
      s ((s.opened h cause).report (some s.firings.length) handler.sink
        (.noMatchingTargets handler.selector handler.trigger)) where
  later := by
    rw [report_eq]
    exact (s.extends_opened h cause).trans (extends_move _ (.record _ _))
  known := known
  does := if_pos rfl
  firings := by
    rw [report_eq, record_firings, opened_firings _ _ _ (List.getElem?_eq_some_iff.mp known).1]
  journal := by
    rw [report_eq, record_journal, opened_journal _ _ _ known, none, opening, List.append_assoc]
    cases handler.sink <;> rfl
  fired := by
    intro h'
    rw [report_eq, firedOf, record_handlers, opened_handlers]
    simp [firedOf]

theorem opens_of_ne_nil {h : Nat} {handler : Handler} (known : s.handlers[h]? = some handler)
    (cause : Cause) (some : s.page.matching handler.selector ≠ []) :
    Opens h cause handler (s.page.matching handler.selector)
      (.logged (.fired handler.selector handler.trigger (s.page.matching handler.selector).length))
      (handler.actions.flatMap (Action.events s.setup.effects handler.sink
        (s.page.matching handler.selector))) s
      ((s.opened h cause).move (.count h s.firings.length
        (.fired handler.selector handler.trigger (s.page.matching handler.selector).length))) where
  later := (s.extends_opened h cause).trans (extends_move _ (.count _ _ _))
  known := known
  does := if_neg some
  firings := by
    rw [← s.opened_firings h cause (List.getElem?_eq_some_iff.mp known).1]
    rfl
  journal := by
    rw [move, log, record_journal, opening, countFiring, modifyHandler,
      show (s.opened h cause).journal = _ from opened_journal _ _ _ known, List.append_assoc]
    rfl
  fired := by
    intro h'
    have known' : (s.opened h cause).handlers[h]? = _ := opened_handlers s h cause ▸ known
    rw [move, firedOf_count known', firedOf, opened_handlers]
    simp [firedOf, some]

/-- A firing accounts for itself, whatever its effects set off. -/
theorem adds_fires {react : Reaction} (admits : Admits AddsNew react) (h : Nat) (cause : Cause) :
    Fires AddsNew react h cause := by
  intro s may orderly
  -- What the cause does before belongs to no firing.
  have entered := (s.silent_enter h cause).adds (s.extends_enter h cause)
  have there : h < (s.enter h cause).handlers.length :=
    (s.enter_handlers_length h cause).symm ▸ orderly.lt_of_mayFire may
  obtain ⟨handler, known⟩ : ∃ handler, (s.enter h cause).handlers[h]? = some handler :=
    ⟨_, List.getElem?_eq_getElem there⟩
  have orderly' : ((s.enter h cause).opened h cause).Orderly :=
    orderly.move (m := .fire h cause) may
  have later : s.Extends ((s.enter h cause).opened h cause) := s.extends_move (.fire h cause)
  have bound : (s.enter h cause).firings.length <
      ((s.enter h cause).opened h cause).firings.length := by
    rw [opened_firings _ _ _ there, List.length_append]
    exact Nat.lt_succ_self _
  rw [setOff_eq react known, runFiring]
  split
  next none =>
    have none := List.isEmpty_iff.mp none
    -- Nothing was found, and the firing ends with its report.
    have noted := leads_addsTo_report handler.sink
      (.noMatchingTargets handler.selector handler.trigger) bound orderly'
    exact ⟨noted.1, later.trans noted.2.1, chained_addsNew.trans (s.extends_enter h cause) entered
      ((opens_of_nil known cause none).addsNew (addsTo_refl _ _))⟩
  next some =>
    have some : (s.enter h cause).page.matching handler.selector ≠ [] := fun none =>
      some (List.isEmpty_iff.mpr none)
    -- Elements were found: the firing is counted, and then its actions run.
    have opens := opens_of_ne_nil known cause some
    have counted := extends_move ((s.enter h cause).opened h cause)
      (.count h (s.enter h cause).firings.length (.fired handler.selector handler.trigger
        ((s.enter h cause).page.matching handler.selector).length))
    have goes := leads_addsTo_actions admits handler.sink
      ((s.enter h cause).page.matching handler.selector) handler.actions
      (Nat.lt_of_lt_of_le bound counted.firings.length_le) (congrArg (·.effects) opens.later.setup)
      (orderly'.move (m := .count h _ _) bound)
    exact ⟨goes.1, (later.trans counted).trans goes.2.1,
      chained_addsNew.trans (s.extends_enter h cause) entered (opens.addsNew goes.2.2)⟩

/-! ### Plays -/

theorem closed_addsNew {kind : Move → Prop} (silent : ∀ m, kind m → IsSilent m) :
    Closed AddsNew kind :=
  fun m is s _ allowed => (silent_move (silent m is) allowed).adds (s.extends_move m)

theorem carried_addsNew : Carried AddsNew := by
  refine chained_addsNew.carried_of_fires (fun c => closed_addsNew fun m does => ?_)
    (closed_addsNew fun m turns => ?_) (closed_addsNew fun m advances => ?_) adds_fires
  · -- A callback apart from its firing notes that it is called, and that it schedules or cancels.
    cases c with
    | press h e => rcases does with rfl | rfl | rfl | ⟨_, rfl⟩ <;> trivial
    | release h e => rcases does with rfl | rfl <;> trivial
    | see h e entered => cases does; trivial
    | event | elapse => cases does
  · cases m <;> trivial
  · cases m <;> trivial

theorem closed_addsNew_binds (h : Nat) : Closed AddsNew (Move.Binds h) :=
  closed_addsNew fun m binds => by
    rcases binds with wires | ⟨handler, rfl⟩
    · cases m with
      | record firing event => cases firing <;> trivial
      | _ => trivial
    · trivial

theorem leads_addsNew_step (s : Scene) (step : Step) : s.Leads AddsNew (s.step step).2 := by
  refine carried_addsNew.step (fun h _ => closed_addsNew_binds h)
    (fun h _ => closed_addsNew fun m unwires => ?_) (closed_addsNew fun m rebinds => ?_)
  · cases m <;> trivial
  · cases m <;> trivial

/-- The journal accounts for all firings. -/
structure Audited (s : Scene) : Prop where
  /-- The own entries of a firing are one query, and what its handler does with the answer. -/
  firings : ∀ (f : Nat) (firing : Firing), s.firings[f]? = some firing →
    ∃ handler, s.handlers[firing.handler]? = some handler ∧
      handler.Accounts firing.handler s.setup.effects (ownEntries s.journal f)
  /-- A handler counts those of its firings that found an element. -/
  fired : ∀ (h : Nat) (handler : Handler), s.handlers[h]? = some handler →
    handler.fired = (List.range s.firings.length).countP (isHit s.firings s.journal h)
  /-- Nothing but a firing calls an effect. -/
  effects : ∀ entry ∈ s.journal, entry.event.IsEffect →
    ∃ f < s.firings.length, entry.firing = some f

/-- A play starts with an empty journal, so all of it was added. -/
theorem addsNew_after (setup : Setup) (steps : List Step) :
    setup.start.Adds (fun _ => []) (setup.start.after steps) (setup.start.after steps).journal := by
  obtain ⟨-, later, tail, adds⟩ :=
    chained_addsNew.leads_after leads_addsNew_step setup.start steps (orderly_start setup)
  have journal : (setup.start.after steps).journal = tail := adds.journal
  exact journal ▸ adds

/-- In every play each firing accounts for itself. -/
theorem accounts_after (setup : Setup) (steps : List Step) {f : Nat} {firing : Firing}
    (known : (setup.start.after steps).firings[f]? = some firing) :
    ∃ handler, (setup.start.after steps).handlers[firing.handler]? = some handler ∧
      handler.Accounts firing.handler (setup.start.after steps).setup.effects
        (ownEntries (setup.start.after steps).journal f) :=
  (addsNew_after setup steps).new f firing (Nat.zero_le f) known

/-- In every play, with whatever effects, all firings account for themselves: each asks one query,
and either reports that nothing was found, or counts itself and then goes through its actions, their
calls and the elements found in order. -/
theorem audited_after (setup : Setup) (steps : List Step) : (setup.start.after steps).Audited := by
  have adds := addsNew_after setup steps
  refine ⟨fun _ _ => accounts_after setup steps, ?_, ?_⟩
  · intro h handler known
    have fired := adds.fired h
    rw [firedOf, known] at fired
    rw [List.range_eq_range']
    exact fired.trans (Nat.zero_add _)
  · intro entry mem is
    cases firing : entry.firing with
    | none => exact absurd firing (adds.effects entry mem is)
    | some f => exact ⟨f, adds.bound entry mem f firing, rfl⟩

end Scene

end TriggerSheet
