import TriggerSheet.Proofs.Scene.Calm

/-!
# What a handler gains from its activation

When a handler is wired while no effect reacts, the scene only gains: registrations that the
activation asks for, firings for what is past or seen while it is registered, and what is noted of
all this. The gain depends on what the page answers, on the number of the handler and on the next
number of a registration, and on nothing else of the scene.

## Main definitions

* `Gain` — registrations, firings and events that are added to a scene
* `Scene.Gains` — one handler changes, and the scene gains something
* `Activation.gain` — what a handler gains from its activation
* `Handler.equipped` — the handler with what it gained

## Main results

* `Scene.gains_fire` — what a firing adds
* `Scene.gains_wireReveals` — what the entries of a revealing handler add
* `Scene.gains_wire` — a handler gains what its activation asks for
-/

namespace TriggerSheet

/-- Registrations, firings and events that are added to a scene. -/
structure Gain where
  listeners : List Listener
  observers : List Observer
  firings : List Firing
  events : List Event

namespace Gain

instance : Append Gain where
  append g g' := ⟨g.listeners ++ g'.listeners, g.observers ++ g'.observers,
    g.firings ++ g'.firings, g.events ++ g'.events⟩

/-- Something is noted. -/
def noted (events : List Event) : Gain := ⟨[], [], [], events⟩

/-- Listeners are made. -/
def listening (listeners : List Listener) : Gain :=
  ⟨listeners, [], [], listeners.map fun l => .listen l.id l.scope l.event⟩

/-- A handler fires. -/
def firing (h : Nat) (cause : Cause) (events : List Event) : Gain :=
  ⟨[], [], [⟨h, cause⟩], events⟩

/-- One gain after the other. -/
def sum : List Gain → Gain
  | [] => noted []
  | g :: rest => g ++ sum rest

variable (g g' : Gain)

@[simp]
theorem append_listeners : (g ++ g').listeners = g.listeners ++ g'.listeners := rfl

@[simp]
theorem append_observers : (g ++ g').observers = g.observers ++ g'.observers := rfl

@[simp]
theorem append_firings : (g ++ g').firings = g.firings ++ g'.firings := rfl

@[simp]
theorem append_events : (g ++ g').events = g.events ++ g'.events := rfl

theorem append_assoc (g'' : Gain) : g ++ g' ++ g'' = g ++ (g' ++ g'') := by
  change (⟨_, _, _, _⟩ : Gain) = ⟨_, _, _, _⟩
  simp only [append_listeners, append_observers, append_firings, append_events, List.append_assoc]

theorem append_noted_nil : g ++ noted [] = g := by
  change (⟨g.listeners ++ [], g.observers ++ [], g.firings ++ [], g.events ++ []⟩ : Gain) = g
  simp only [List.append_nil]

theorem noted_nil_append : noted [] ++ g = g := rfl

theorem listening_append (listeners listeners' : List Listener) :
    listening (listeners ++ listeners') = listening listeners ++ listening listeners' := by
  rw [listening, List.map_append]
  rfl

theorem sum_eq (gains : List Gain) : sum gains = ⟨gains.flatMap (·.listeners),
    gains.flatMap (·.observers), gains.flatMap (·.firings), gains.flatMap (·.events)⟩ := by
  induction gains with
  | nil => rfl
  | cons g rest ih => rw [sum, ih]; rfl

theorem sum_listeners (gains : List Gain) :
    (sum gains).listeners = gains.flatMap (·.listeners) := by rw [sum_eq]

theorem sum_observers (gains : List Gain) :
    (sum gains).observers = gains.flatMap (·.observers) := by rw [sum_eq]

theorem sum_firings (gains : List Gain) :
    (sum gains).firings = gains.flatMap (·.firings) := by rw [sum_eq]

theorem sum_events (gains : List Gain) :
    (sum gains).events = gains.flatMap (·.events) := by rw [sum_eq]

end Gain

/-- The page with the registrations of a gain. -/
def Page.gain (p : Page) (g : Gain) : Page :=
  { p with
    listeners := p.listeners ++ g.listeners
    observers := p.observers ++ g.observers
    nextId := p.nextId + (g.listeners.length + g.observers.length) }

theorem Page.gain_append (p : Page) (g g' : Gain) : p.gain (g ++ g') = (p.gain g).gain g' := by
  simp only [Page.gain, Gain.append_listeners, Gain.append_observers, List.append_assoc,
    List.length_append, Page.mk.injEq, true_and, and_true]
  omega

theorem Page.gain_of_nil (p : Page) {g : Gain} (listeners : g.listeners = [])
    (observers : g.observers = []) : p.gain g = p := by
  simp [Page.gain, listeners, observers]

/-! ### What an activation asks for -/

/-- Listeners with numbers from `n` on. -/
def listenersFrom (n : Nat) (heard : List (Scope × String × Callback)) : List Listener :=
  (heard.zipIdx n).map fun ((scope, event, callback), id) => ⟨id, scope, event, callback, true⟩

theorem listenersFrom_cons (n : Nat) (heard : Scope × String × Callback)
    (rest : List (Scope × String × Callback)) :
    listenersFrom n (heard :: rest) = listenersFrom n [heard] ++ listenersFrom (n + 1) rest := rfl

/-- What a handler listens for, on its targets or elsewhere, where `ready` says whether the content
of the page is ready. -/
def Activation.heard (h : Nat) (targets : List Target) (ready : Bool) :
    Activation → List (Scope × String × Callback)
  | .singleClick => targets.map fun t => (.target t, EventName.click, .event h)
  | .doubleClick => targets.map fun t => (.target t, EventName.doubleClick, .event h)
  | .element event => targets.map fun t => (.target t, event, .event h)
  | .hold => targets.zipIdx.flatMap fun (t, e) =>
    [(.target t, EventName.pressStart, .press h e), (.target t, EventName.pressEnd, .release h e),
      (.target t, EventName.pressLeave, .release h e)]
  | .reveal => []
  | .window event => [(.global, event, .event h)]
  | .contentReady => if ready then [] else [(.document, EventName.contentReady, .event h)]

/-- What an element's observer is told while it is registered. -/
def Setup.told (setup : Setup) (target : Target) : List Bool :=
  (setup.signals.lookup target).getD []

/-- Whether an element is told to have entered the view while it is registered. -/
def Setup.tells (setup : Setup) (target : Target) : Bool := (setup.told target).contains true

/-- What an entry gains while it is told the views of its element: it fires at the first entry. -/
def tellings (h e : Nat) (fires : List Event) : List Bool → Gain
  | [] => .noted []
  | false :: rest => .noted [.called (.see h e false)] ++ tellings h e fires rest
  | true :: rest => .noted [.called (.see h e true)] ++ (.firing h (.revealed e) fires ++
    .noted (rest.map fun entered => .called (.see h e entered)))

theorem tellings_listeners (h e : Nat) (fires : List Event) (signals : List Bool) :
    (tellings h e fires signals).listeners = [] := by
  induction signals with
  | nil => rfl
  | cons entered rest ih => cases entered <;> first | exact ih | rfl

theorem tellings_observers (h e : Nat) (fires : List Event) (signals : List Bool) :
    (tellings h e fires signals).observers = [] := by
  induction signals with
  | nil => rfl
  | cons entered rest ih => cases entered <;> first | exact ih | rfl

/-- An entry fires once if it is told that its element entered the view. -/
theorem tellings_firings (h e : Nat) (fires : List Event) (signals : List Bool) :
    (tellings h e fires signals).firings =
      if signals.contains true then [⟨h, .revealed e⟩] else [] := by
  induction signals with
  | nil => rfl
  | cons entered rest ih =>
    cases entered with
    | false =>
      rw [List.contains_cons]
      exact ih
    | true => rfl

/-- What the entry of a revealing handler gains: its observer, and what is told meanwhile. An
observer that is not needed any more is cancelled at once. -/
def Setup.entryGain (setup : Setup) (threshold : Binary64) (h id : Nat) (fires : List Event)
    (target : Target) (e : Nat) : Gain :=
  ⟨[], [⟨id, target, h, e, !setup.tells target⟩], [], [.observe id target threshold]⟩ ++
    (tellings h e fires (setup.told target) ++
      .noted (if setup.tells target then [.cancel id] else []))

/-- What the entry of a revealing handler keeps. -/
def Setup.entryFor (setup : Setup) (id : Nat) (target : Target) : Entry :=
  if setup.tells target then ⟨none, true⟩ else ⟨some id, false⟩

/-- What the entries of a revealing handler gain, from entry `e` on. -/
def Setup.entriesGain (setup : Setup) (threshold : Binary64) (h n : Nat) (fires : List Event)
    (targets : List Target) (e : Nat) : Gain :=
  .sum ((targets.zipIdx e).map fun (t, e) => setup.entryGain threshold h (n + e) fires t e)

/-- What a handler gains from its activation, where `fires` is what a firing of it notes. -/
def Activation.gain (a : Activation) (setup : Setup) (p : Page) (threshold : Binary64) (h : Nat)
    (selector : String) (targets : List Target) (fires : List Event) : Gain :=
  match a with
  | .reveal => setup.entriesGain threshold h p.nextId fires targets 0
  | .contentReady =>
    .noted [.askContentReady] ++
      if p.contentReady then
        .noted [.logged (.alreadyReady selector)] ++ .firing h .alreadyPast fires
      else .listening (listenersFrom p.nextId [(.document, EventName.contentReady, .event h)])
  | .window event =>
    .listening (listenersFrom p.nextId [(.global, event, .event h)]) ++
      if event = EventName.load then
        .noted [.askLoaded] ++
          if p.loaded then
            .noted [.logged (.alreadyLoaded selector)] ++ .firing h .alreadyPast fires
          else .noted []
      else .noted []
  | .singleClick | .doubleClick | .element _ | .hold =>
    .listening (listenersFrom p.nextId (a.heard h targets p.contentReady))

/-- The causes for which a handler fires while it is bound: what is past by then, and the elements
that are seen meanwhile. -/
def Activation.causes (setup : Setup) (p : Page) (targets : List Target) :
    Activation → List Cause
  | .window event => if event = EventName.load ∧ p.loaded then [.alreadyPast] else []
  | .contentReady => if p.contentReady then [.alreadyPast] else []
  | .reveal => (targets.zipIdx.filter fun (t, _) => setup.tells t).map fun (_, e) => .revealed e
  | .singleClick | .doubleClick | .element _ | .hold => []

/-- How many listeners an activation asks for on some elements. -/
def Activation.listenerCount (elements : Nat) (ready : Bool) : Activation → Nat
  | .singleClick | .doubleClick | .element _ => elements
  | .hold => 3 * elements
  | .reveal => 0
  | .window _ => 1
  | .contentReady => if ready then 0 else 1

/-- A query is asked. -/
def Event.isQuery : Event → Bool
  | query _ _ => true
  | _ => false

/-- What a firing of a handler notes on a page. -/
def firingEvents (setup : Setup) (p : Page) (handler : Handler) : List Event :=
  .query handler.selector (p.matching handler.selector) ::
    handler.events setup.effects (p.matching handler.selector)

/-- What counts of some firings of a handler on a page. -/
def hits (p : Page) (handler : Handler) (firings : Nat) : Nat :=
  if p.matching handler.selector = [] then 0 else firings

/-- The handler of a clause with what it gained. -/
def Handler.equipped (handler : Handler) (setup : Setup) (p : Page) (targets : List Target)
    (g : Gain) : Handler :=
  { handler with
    fired := handler.fired + hits p handler g.firings.length
    listeners := handler.listeners ++ g.listeners.map (·.id)
    entries :=
      if handler.activation = .reveal then
        targets.zipIdx.map fun (t, e) => setup.entryFor (p.nextId + e) t
      else handler.entries }

/-! ### What is gained in all -/

theorem length_flatMap_const {α β : Type} (f : α → List β) (n : Nat)
    (each : ∀ x, (f x).length = n) (l : List α) : (l.flatMap f).length = n * l.length := by
  simp [List.length_flatMap, each, Nat.mul_comm]

theorem Activation.length_heard (a : Activation) (h : Nat) (targets : List Target)
    (ready : Bool) : (a.heard h targets ready).length = a.listenerCount targets.length ready := by
  cases a with
  | hold =>
    rw [heard, length_flatMap_const _ 3 (fun _ => rfl), List.length_zipIdx]
    rfl
  | contentReady => cases ready <;> rfl
  | singleClick | doubleClick | element event => exact List.length_map ..
  | reveal | window event => rfl

theorem map_listenersFrom (n : Nat) (heard : List (Scope × String × Callback)) :
    (listenersFrom n heard).map (fun l => (l.scope, l.event, l.callback)) = heard := by
  rw [listenersFrom, List.map_map]
  exact List.zipIdx_map_fst n heard

theorem active_of_mem_listenersFrom {n : Nat} {heard : List (Scope × String × Callback)}
    {l : Listener} (mem : l ∈ listenersFrom n heard) : l.active = true := by
  obtain ⟨_, -, rfl⟩ := List.mem_map.mp mem
  rfl

section EntryGain

variable (setup : Setup) (threshold : Binary64) (h id : Nat) (fires : List Event)
  (target : Target) (e : Nat)

theorem entryGain_listeners : (setup.entryGain threshold h id fires target e).listeners = [] := by
  simp [Setup.entryGain, tellings_listeners, Gain.noted]

theorem entryGain_observers : (setup.entryGain threshold h id fires target e).observers =
    [⟨id, target, h, e, !setup.tells target⟩] := by
  simp [Setup.entryGain, tellings_observers, Gain.noted]

theorem entryGain_firings : (setup.entryGain threshold h id fires target e).firings =
    if setup.tells target then [⟨h, .revealed e⟩] else [] := by
  rw [Setup.entryGain, Gain.append_firings, Gain.append_firings, tellings_firings]
  exact (List.append_nil _)

end EntryGain

section Gained

variable (a : Activation) (setup : Setup) (p : Page) (threshold : Binary64) (h : Nat)
  (selector : String) (targets : List Target) (fires : List Event)

theorem gain_listeners : (a.gain setup p threshold h selector targets fires).listeners =
    listenersFrom p.nextId (a.heard h targets p.contentReady) := by
  cases a with
  | reveal =>
    rw [Activation.gain, Setup.entriesGain, Gain.sum_listeners]
    refine List.flatMap_eq_nil_iff.mpr fun gain mem => ?_
    obtain ⟨_, -, rfl⟩ := List.mem_map.mp mem
    exact entryGain_listeners ..
  | contentReady =>
    rw [Activation.gain, Activation.heard]
    cases p.contentReady <;> rfl
  | window event =>
    rw [Activation.gain]
    split
    · split <;> rfl
    · rfl
  | singleClick | doubleClick | hold | element event => rfl

theorem gain_observers : (a.gain setup p threshold h selector targets fires).observers =
    if a = .reveal then targets.zipIdx.map fun (t, e) => ⟨p.nextId + e, t, h, e, !setup.tells t⟩
    else [] := by
  cases a with
  | reveal =>
    rw [Activation.gain, Setup.entriesGain, Gain.sum_observers, if_pos rfl, List.flatMap_map]
    simp only [entryGain_observers]
    exact (List.map_eq_flatMap ..).symm
  | contentReady =>
    rw [Activation.gain]
    split <;> rfl
  | window event =>
    rw [Activation.gain]
    split
    · split <;> rfl
    · rfl
  | singleClick | doubleClick | hold | element event => rfl

omit a setup p threshold h selector targets fires in
theorem flatMap_ite_eq_map_filter {α β : Type} (q : α → Bool) (f : α → β) (l : List α) :
    l.flatMap (fun x => if q x then [f x] else []) = (l.filter q).map f := by
  induction l with
  | nil => rfl
  | cons x l ih => cases is : q x <;> simp [is, ih]

theorem gain_firings : (a.gain setup p threshold h selector targets fires).firings =
    (a.causes setup p targets).map (⟨h, ·⟩) := by
  cases a with
  | reveal =>
    rw [Activation.gain, Setup.entriesGain, Gain.sum_firings, List.flatMap_map, Activation.causes,
      List.map_map]
    simp only [entryGain_firings]
    exact flatMap_ite_eq_map_filter ..
  | contentReady =>
    rw [Activation.gain, Activation.causes]
    split <;> rfl
  | window event =>
    rw [Activation.gain, Activation.causes]
    by_cases load : event = EventName.load
    · simp only [load, if_true, true_and]
      split <;> rfl
    · simp only [load, if_false, false_and]
      rfl
  | singleClick | doubleClick | hold | element event => rfl

/-- What holds of each part that a gain is put together from holds of the gain. -/
theorem gain_parts {P : Gain → Prop} (append : ∀ {g g'}, P g → P g' → P (g ++ g'))
    (noted : ∀ events, (∀ event ∈ events, event.isQuery = false) → P (.noted events))
    (listening : ∀ listeners, P (.listening listeners))
    (observing : ∀ o : Observer, P ⟨[], [o], [], [.observe o.id o.target threshold]⟩)
    (firing : ∀ cause, P (.firing h cause fires)) :
    P (a.gain setup p threshold h selector targets fires) := by
  have note (event : Event) (plain : event.isQuery = false) : P (.noted [event]) :=
    noted [event] (by simpa using plain)
  have past (n : Note) : P (.noted [.logged n] ++ .firing h .alreadyPast fires) :=
    append (note _ rfl) (firing _)
  have told (e : Nat) (signals : List Bool) : P (tellings h e fires signals) := by
    induction signals with
    | nil => exact noted [] (by simp)
    | cons entered rest ih =>
      cases entered with
      | false => exact append (note _ rfl) ih
      | true =>
        refine append (note _ rfl) (append (firing _) (noted _ fun event mem => ?_))
        obtain ⟨_, -, rfl⟩ := List.mem_map.mp mem
        rfl
  have sum (gains : List Gain) (each : ∀ g ∈ gains, P g) : P (.sum gains) := by
    induction gains with
    | nil => exact noted [] (by simp)
    | cons g rest ih =>
      exact append (each g (List.mem_cons_self ..))
        (ih fun g mem => each g (List.mem_cons_of_mem _ mem))
  cases a with
  | reveal =>
    refine sum _ fun g mem => ?_
    obtain ⟨⟨t, e⟩, -, rfl⟩ := List.mem_map.mp mem
    refine append (observing _) (append (told e _) ?_)
    split
    · exact note _ rfl
    · exact noted [] (by simp)
  | contentReady =>
    refine append (note _ rfl) ?_
    split
    · exact past _
    · exact listening _
  | window event =>
    refine append (listening _) ?_
    split
    · refine append (note _ rfl) ?_
      split
      · exact past _
      · exact noted [] (by simp)
    · exact noted [] (by simp)
  | singleClick | doubleClick | hold | element event => exact listening _

/-- One query is asked for each firing. -/
theorem countP_gain (one : fires.countP Event.isQuery = 1) :
    (a.gain setup p threshold h selector targets fires).events.countP Event.isQuery =
      (a.gain setup p threshold h selector targets fires).firings.length := by
  refine gain_parts a setup p threshold h selector targets fires
    (P := fun g => g.events.countP Event.isQuery = g.firings.length) (fun {g g'} asks asks' => ?_)
    (fun events none => List.countP_eq_zero.mpr fun event mem => by simp [none event mem])
    (fun listeners => List.countP_eq_zero.mpr fun event mem => ?_) (fun _ => rfl) fun _ => one
  · rw [Gain.append_events, List.countP_append, asks, asks', Gain.append_firings,
      List.length_append]
  · obtain ⟨l, -, rfl⟩ := List.mem_map.mp mem
    exact Bool.false_ne_true

/-- Only firings ask queries. -/
theorem mem_fires_of_isQuery {event : Event}
    (mem : event ∈ (a.gain setup p threshold h selector targets fires).events)
    (asks : event.isQuery = true) : event ∈ fires := by
  refine gain_parts a setup p threshold h selector targets fires
    (P := fun g => event ∈ g.events → event ∈ fires) (fun {g g'} own own' mem => ?_)
    (fun events none mem => ?_) (fun listeners mem => ?_) (fun o mem => ?_) (fun _ => id) mem
  · exact (List.mem_append.mp mem).elim own own'
  · exact absurd asks (by simp [none event mem])
  · obtain ⟨l, -, rfl⟩ := List.mem_map.mp mem
    cases asks
  · cases List.mem_singleton.mp mem
    cases asks

end Gained

/-- What a handler does with the elements that it found asks nothing more. -/
theorem Handler.not_isQuery_of_mem_events {handler : Handler}
    {effects : Registry Effect} {found : List Target} {event : Event}
    (mem : event ∈ handler.events effects found) : event.isQuery = false := by
  have reported (d : Diagnostic) (mem : event ∈ [handler.sink.event d]) :
      event.isQuery = false := by
    cases List.mem_singleton.mp mem
    cases handler.sink <;> rfl
  unfold Handler.events at mem
  split at mem
  · exact reported _ mem
  rcases List.mem_cons.mp mem with rfl | mem
  · rfl
  obtain ⟨action, -, mem⟩ := List.mem_flatMap.mp mem
  obtain ⟨call, -, mem⟩ := List.mem_flatMap.mp mem
  unfold Call.events at mem
  split at mem
  · exact reported _ mem
  · split at mem
    · obtain ⟨target, -, rfl⟩ := List.mem_map.mp mem
      rfl
    · exact reported _ mem

/-- A firing asks one query. -/
theorem countP_firingEvents (setup : Setup) (p : Page) (handler : Handler) :
    (firingEvents setup p handler).countP Event.isQuery = 1 := by
  have answered (event : Event)
      (mem : event ∈ handler.events setup.effects (p.matching handler.selector)) :
      ¬event.isQuery = true := by
    rw [Handler.not_isQuery_of_mem_events mem]
    exact Bool.false_ne_true
  rw [firingEvents, List.countP_cons, List.countP_eq_zero.mpr answered]
  rfl

namespace Scene

variable {react : Reaction} {s t u : Scene} {h e : Nat} {a b c : Handler} {g g' : Gain}

/-- From `s` to `t` one handler changes from `a` to `b`, and the scene gains `g`. -/
structure Gains (h : Nat) (a b : Handler) (g : Gain) (s t : Scene) : Prop where
  known : s.handlers[h]? = some a
  handlers : t.handlers = s.handlers.set h b
  setup : t.setup = s.setup
  page : t.page = s.page.gain g
  firings : t.firings = s.firings ++ g.firings
  events : t.events = s.events ++ g.events

theorem Gains.known' (gains : Gains h a b g s t) : t.handlers[h]? = some b := by
  rw [gains.handlers]
  exact List.getElem?_set_self (List.getElem?_eq_some_iff.mp gains.known).1

theorem Gains.trans (first : Gains h a b g s t) (second : Gains h b c g' t u) :
    Gains h a c (g ++ g') s u where
  known := first.known
  handlers := by rw [second.handlers, first.handlers, List.set_set]
  setup := second.setup.trans first.setup
  page := by rw [second.page, first.page, Page.gain_append]
  firings := by rw [second.firings, first.firings, Gain.append_firings, List.append_assoc]
  events := by rw [second.events, first.events, Gain.append_events, List.append_assoc]

theorem modify_of_known {α : Type} {l : List α} {i : Nat} {x : α} (known : l[i]? = some x)
    (f : α → α) : l.modify i f = l.set i (f x) := by
  rw [List.modify_eq_set_getElem?, known]
  rfl

theorem set_of_known {α : Type} {l : List α} {i : Nat} {x : α} (known : l[i]? = some x) :
    l.set i x = l := by
  obtain ⟨lt, rfl⟩ := List.getElem?_eq_some_iff.mp known
  exact List.set_getElem_self lt

theorem gains_noteAll (known : s.handlers[h]? = some a) (firing : Option Nat)
    (events : List Event) : Gains h a a (.noted events) s (s.noteAll firing events) where
  known := known
  handlers := (set_of_known known).symm
  setup := rfl
  page := (s.page.gain_of_nil rfl rfl).symm
  firings := (List.append_nil _).symm
  events := s.noteAll_events firing events

/-- Nothing is gained where nothing happens. -/
theorem gains_refl (known : s.handlers[h]? = some a) : Gains h a a (.noted []) s s := by
  simpa only [noteAll_nil] using gains_noteAll known none []

theorem events_record (s : Scene) (firing : Option Nat) (event : Event) :
    (s.record firing event).events = s.events ++ [event] := by
  simp [Scene.events, record_journal]

theorem gains_record (known : s.handlers[h]? = some a) (firing : Option Nat) (event : Event) :
    Gains h a a (.noted [event]) s (s.record firing event) :=
  gains_noteAll known firing [event]

/-! ### Listening -/

theorem gains_listen (known : s.handlers[h]? = some a) (heard : Scope × String × Callback) :
    Gains h a { a with listeners := a.listeners ++ [s.page.nextId] }
      (.listening (listenersFrom s.page.nextId [heard])) s
      (s.listen h heard.1 heard.2.1 heard.2.2) where
  known := known
  handlers := modify_of_known known _
  setup := rfl
  page := by
    simp [listen, modifyHandler, Page.listen, Page.gain, Gain.listening, listenersFrom]
  firings := (List.append_nil _).symm
  events := by
    simp [listen, Scene.events, modifyHandler, record, Gain.listening, listenersFrom]

/-- A handler listens for one thing after the other. -/
theorem gains_listens (known : s.handlers[h]? = some a)
    (heard : List (Scope × String × Callback)) :
    Gains h a
      { a with listeners := a.listeners ++ (listenersFrom s.page.nextId heard).map (·.id) }
      (.listening (listenersFrom s.page.nextId heard)) s
      (heard.foldl (fun s l => s.listen h l.1 l.2.1 l.2.2) s) := by
  induction heard generalizing s a with
  | nil =>
    simp only [listenersFrom, List.zipIdx_nil, List.map_nil, List.append_nil]
    exact gains_refl known
  | cons first rest ih =>
    have one := gains_listen known first
    have others := one.trans (ih one.known')
    have next : (s.listen h first.1 first.2.1 first.2.2).page.nextId = s.page.nextId + 1 := rfl
    rw [next, ← Gain.listening_append, ← listenersFrom_cons] at others
    rw [List.foldl_cons, listenersFrom_cons, List.map_append, ← List.append_assoc]
    exact others

/-- What listens for each target, one after the other, is what the activation hears. -/
theorem wire_eq_listens (threshold : Binary64) (selector : String) (activation : Activation)
    (targets : List Target) (ready : Bool)
    (listens : activation = .hold ∨ activation = .singleClick ∨ activation = .doubleClick ∨
      ∃ event, activation = .element event) :
    wire react threshold s h selector activation targets =
      (activation.heard h targets ready).foldl (fun s l => s.listen h l.1 l.2.1 l.2.2) s := by
  rcases listens with rfl | rfl | rfl | ⟨event, rfl⟩
  · rw [Activation.heard, List.foldl_flatMap]
    rfl
  all_goals
    rw [Activation.heard, List.foldl_map]
    rfl

/-! ### Firing -/

/-- What a firing adds: it asks its query, and does what its handler does with the answer. -/
theorem gains_fire (inert : Inert react s.setup) (known : s.handlers[h]? = some a) (cause : Cause) :
    Gains h a { a with fired := a.fired + hits s.page a 1 }
      (.firing h cause (firingEvents s.setup s.page a)) s (s.setOff react h cause) := by
  have opens : Gains h a a
      (.firing h cause [.query a.selector (s.page.matching a.selector)]) s (s.opened h cause) := by
    rw [opened_eq known]
    exact { gains_record known _ _ with firings := rfl }
  rw [setOff_of_inert inert known, firingEvents]
  by_cases none : s.page.matching a.selector = []
  · rw [if_pos none, hits, if_pos none, none]
    exact none ▸ opens.trans (gains_noteAll opens.known' _ _)
  · rw [if_neg none, hits, if_neg none]
    have counts : Gains h a { a with fired := a.fired + 1 } (.noted []) (s.opened h cause)
        ((s.opened h cause).countFiring h) :=
      { gains_refl opens.known' with handlers := modify_of_known opens.known' _ }
    have notes := gains_noteAll counts.known' (some s.firings.length)
      (a.events s.setup.effects (s.page.matching a.selector))
    exact opens.trans (counts.trans notes)

/-! ### Being told -/

theorem isRevealed_of_known (known : s.handlers[h]? = some a) {entry : Entry}
    (there : a.entries[e]? = some entry) : s.isRevealed h e = entry.revealed := by
  simp [isRevealed, entryAt?, known, there]

/-- A view that is no entering, or not the first one, is only noted. -/
theorem gains_see_idle (react : Reaction) (known : s.handlers[h]? = some a) {entry : Entry}
    (there : a.entries[e]? = some entry) (entered : Bool)
    (idle : (entered && !entry.revealed) = false) :
    Gains h a a (.noted [.called (.see h e entered)]) s (run react s (.see h e entered)) := by
  have told : entered = true → s.isRevealed h e = true := by
    rintro rfl
    simpa [isRevealed_of_known known there] using idle
  rw [run_see_noted told]
  exact gains_record known none _

/-- At its first entry into the view, an entry that holds nothing fires. -/
theorem gains_see_first (inert : Inert react s.setup) (known : s.handlers[h]? = some a)
    (there : a.entries[e]? = some .fresh) :
    Gains h a
      { a with
        entries := a.entries.set e ⟨none, true⟩
        fired := a.fired + hits s.page a 1 }
      (.noted [.called (.see h e true)] ++
        .firing h (.revealed e) (firingEvents s.setup s.page a)) s
      (run react s (.see h e true)) := by
  let told := (s.record none (.called (.see h e true))).modifyEntry h e
    ({ · with revealed := true })
  have reveals : Gains h a { a with entries := a.entries.set e ⟨none, true⟩ }
      (.noted [.called (.see h e true)]) s told := by
    refine { gains_record known none _ with handlers := (modify_of_known known _).trans ?_ }
    rw [modify_of_known there]
    rfl
  have unheld : told.held? h e = none := by
    rw [held?_reveal, held?, entryAt?, known, Option.bind_some, there]
    rfl
  have entered : s.enter h (.revealed e) = told := clear_of_held?_eq_none unheld
  rw [run_see_first (isRevealed_of_known known there), entered]
  exact reveals.trans (gains_fire (s := told) inert reveals.known' (.revealed e))

/-- The handler of an entry that was told the views of its element, if it held nothing before. -/
def toldOf (p : Page) (a : Handler) (e : Nat) (signals : List Bool) : Handler :=
  { a with
    entries := a.entries.set e ⟨none, signals.contains true⟩
    fired := a.fired + hits p a (if signals.contains true then 1 else 0) }

/-- An entry that has been in the view is told more. -/
theorem gains_told_revealed (react : Reaction) (known : s.handlers[h]? = some a) {entry : Entry}
    (there : a.entries[e]? = some entry) (revealed : entry.revealed = true)
    (signals : List Bool) :
    Gains h a a (.noted (signals.map fun entered => .called (.see h e entered))) s
      (signals.foldl (fun s entered => run react s (.see h e entered)) s) := by
  induction signals generalizing s with
  | nil => exact gains_refl known
  | cons entered rest ih =>
    have first := gains_see_idle react known there entered
      (by rw [revealed, Bool.not_true, Bool.and_false])
    exact first.trans (ih first.known')

/-- An entry that was never in the view is told the views of its element. -/
theorem gains_told (inert : Inert react s.setup) (known : s.handlers[h]? = some a)
    (there : a.entries[e]? = some .fresh) (signals : List Bool) :
    Gains h a (toldOf s.page a e signals)
      (tellings h e (firingEvents s.setup s.page a) signals) s
      (signals.foldl (fun s entered => run react s (.see h e entered)) s) := by
  induction signals generalizing s with
  | nil =>
    have same : toldOf s.page a e [] = a := by
      simp only [toldOf, List.contains_nil, hits]
      rw [show (⟨none, false⟩ : Entry) = .fresh from rfl, set_of_known there]
      simp
    exact same.symm ▸ gains_refl known
  | cons entered rest ih =>
    cases entered with
    | false =>
      have first := gains_see_idle react known there false rfl
      exact first.trans (ih (s := run react s (.see h e false)) inert first.known')
    | true =>
      have first := gains_see_first inert known there
      have there' : (a.entries.set e ⟨none, true⟩)[e]? = some ⟨none, true⟩ :=
        List.getElem?_set_self (List.getElem?_eq_some_iff.mp there).1
      have later := gains_told_revealed react first.known' there' rfl rest
      have all := first.trans later
      rw [Gain.append_assoc] at all
      simpa [toldOf, tellings] using all

/-! ### Revealing -/

/-- A registration that was just made is cancelled alone. -/
theorem cancel_observe (p : Page) (lt : ∀ id ∈ p.ids, id < p.nextId) (target : Target)
    (h e : Nat) : (p.observe target h e).cancel p.nextId =
      { p with
        observers := p.observers ++ [⟨p.nextId, target, h, e, false⟩]
        nextId := p.nextId + 1 } := by
  have other {id : Nat} (mem : id ∈ p.ids) : id ≠ p.nextId := Nat.ne_of_lt (lt id mem)
  have listeners : p.listeners.map (fun l => { l with active := l.active && l.id ≠ p.nextId }) =
      p.listeners :=
    (List.map_congr_left fun l mem => by simp [other (Page.id_listener_mem mem)]).trans
      (List.map_id _)
  have observers : p.observers.map (fun o => { o with active := o.active && o.id ≠ p.nextId }) =
      p.observers :=
    (List.map_congr_left fun o mem => by simp [other (Page.id_observer_mem mem)]).trans
      (List.map_id _)
  have timers : p.timers.map (fun t => { t with active := t.active && t.id ≠ p.nextId }) =
      p.timers :=
    (List.map_congr_left fun t mem => by simp [other (Page.id_timer_mem mem)]).trans
      (List.map_id _)
  simp only [Page.cancel, Page.observe, List.map_append, listeners, observers, timers]
  simp

/-- The page makes the observer of an entry, and tells it the views of its element. -/
theorem gains_observed (inert : Inert react s.setup) (known : s.handlers[h]? = some a)
    (there : a.entries[e]? = some .fresh) (threshold : Binary64) (target : Target) :
    Gains h a (toldOf s.page a e (s.setup.told target))
      (⟨[], [⟨s.page.nextId, target, h, e, true⟩], [],
          [.observe s.page.nextId target threshold]⟩ ++
        tellings h e (firingEvents s.setup s.page a) (s.setup.told target)) s
      (observed react threshold h s target e) := by
  have observes : Gains h a a
      ⟨[], [⟨s.page.nextId, target, h, e, true⟩], [],
        [.observe s.page.nextId target threshold]⟩ s (s.move (.observe h e target threshold)) :=
    { gains_record known none (.observe s.page.nextId target threshold) with
      page := by simp [move, Page.observe, Page.gain] }
  have told := gains_told (s := s.move (.observe h e target threshold)) inert observes.known' there
    (s.setup.told target)
  exact observes.trans told

/-- The entry of a revealing handler observes its element. -/
theorem gains_wireReveal (inert : Inert react s.setup) (known : s.handlers[h]? = some a)
    (there : a.entries[e]? = some .fresh) (lt : ∀ id ∈ s.page.ids, id < s.page.nextId)
    (threshold : Binary64) (target : Target) :
    Gains h a
      { a with
        entries := a.entries.set e (s.setup.entryFor s.page.nextId target)
        fired := a.fired + hits s.page a (if s.setup.tells target then 1 else 0) }
      (s.setup.entryGain threshold h s.page.nextId (firingEvents s.setup s.page a) target e) s
      (wireReveal react threshold h s target e) := by
  have told := gains_observed inert known there threshold target
  have bound : e < a.entries.length := (List.getElem?_eq_some_iff.mp there).1
  have page : (observed react threshold h s target e).page = s.page.observe target h e := by
    rw [told.page, Page.gain_append, Page.gain_of_nil _ (tellings_listeners ..)
      (tellings_observers ..)]
    simp [Page.gain, Page.observe]
  have revealed : (observed react threshold h s target e).isRevealed h e = s.setup.tells target :=
    isRevealed_of_known told.known' (List.getElem?_set_self bound)
  rw [wireReveal_eq, revealed, Setup.entryGain, Setup.entryFor]
  cases tells : s.setup.tells target with
  | true =>
    have contains : (s.setup.told target).contains true = true := tells
    simp only [if_true]
    refine
      { known
        handlers := ?_
        setup := told.setup
        page := ?_
        firings := ?_
        events := ?_ }
    · rw [cancel, record_handlers, told.handlers]
      simp only [toldOf, contains, if_true]
    · simp only [cancel, record_page, page, cancel_observe _ lt]
      simp [Page.gain, tellings_listeners, tellings_observers, Gain.noted]
    · exact told.firings.trans (by simp [Gain.noted])
    · have all : (observed react threshold h s target e).events = _ := told.events
      rw [cancel, events_record]
      exact (congrArg (· ++ [_]) all).trans (by simp [Gain.noted])
  | false =>
    have contains : (s.setup.told target).contains true = false := tells
    simp only [Bool.false_eq_true, if_false, Gain.append_noted_nil]
    refine { told with handlers := ?_ }
    rw [hold, modifyEntry, modifyHandler, modify_of_known told.known', told.handlers]
    simp only [toldOf, contains]
    rw [modify_of_known (List.getElem?_set_self bound)]
    simp

/-- One more observer takes the next number. -/
theorem lt_of_gain {p : Page} (lt : ∀ id ∈ p.ids, id < p.nextId) (none : g.listeners = [])
    (one : g.observers.map (·.id) = [p.nextId]) :
    ∀ id ∈ (p.gain g).ids, id < (p.gain g).nextId := by
  intro id mem
  have length : g.observers.length = 1 := by simpa using congrArg List.length one
  have mem : id ∈ p.ids ∨ id = p.nextId := by
    simp only [Page.ids, Page.gain, none, List.map_append, one, List.mem_append, List.map_nil,
      List.mem_singleton, List.not_mem_nil, or_false] at mem ⊢
    tauto
  rw [Page.gain, none, length]
  rcases mem with old | rfl
  · exact Nat.lt_add_right 1 (lt id old)
  · exact Nat.lt_succ_self _

theorem hits_add (p : Page) (a : Handler) (m n : Nat) :
    hits p a (m + n) = hits p a m + hits p a n := by
  unfold hits
  split <;> rfl

/-- The entries of a revealing handler observe their elements, one after the other. -/
theorem gains_wireReveals (inert : Inert react s.setup) (known : s.handlers[h]? = some a)
    {done : List Entry} {targets : List Target}
    (entries : a.entries = done ++ targets.map fun _ => .fresh)
    (lt : ∀ id ∈ s.page.ids, id < s.page.nextId) (threshold : Binary64) {n : Nat}
    (next : s.page.nextId = n + done.length) :
    let g := s.setup.entriesGain threshold h n (firingEvents s.setup s.page a) targets done.length
    Gains h a
      { a with
        entries := done ++ (targets.zipIdx done.length).map fun (t, e) => s.setup.entryFor (n + e) t
        fired := a.fired + hits s.page a g.firings.length } g s
      ((targets.zipIdx done.length).foldl
        (fun s (target, e) => wireReveal react threshold h s target e) s) := by
  -- The entries of `done` are wired, and all others are fresh; wiring the next one leaves it so.
  induction targets generalizing s a done with
  | nil =>
    intro g
    have same : hits s.page a g.firings.length = 0 := by
      unfold hits
      split <;> rfl
    have all : a.entries = done := entries.trans (List.append_nil _)
    rw [same]
    simp only [List.zipIdx_nil, List.map_nil, List.append_nil, Nat.add_zero, ← all]
    exact gains_refl known
  | cons target rest ih =>
    have there : a.entries[done.length]? = some .fresh := by simp [entries]
    have first := gains_wireReveal inert known there lt threshold target
    have grown : a.entries.set done.length (s.setup.entryFor s.page.nextId target) =
        (done ++ [s.setup.entryFor s.page.nextId target]) ++ rest.map fun _ => .fresh := by
      simp [entries]
    have lt' : ∀ id ∈ (wireReveal react threshold h s target done.length).page.ids,
        id < (wireReveal react threshold h s target done.length).page.nextId := by
      rw [first.page]
      exact lt_of_gain lt (entryGain_listeners ..) (congrArg _ (entryGain_observers ..))
    have next' : (wireReveal react threshold h s target done.length).page.nextId =
        n + (done ++ [s.setup.entryFor s.page.nextId target]).length := by
      rw [first.page, Page.gain, entryGain_listeners, entryGain_observers, next]
      simp
      omega
    have others := ih (first.setup ▸ inert) first.known' grown lt' next'
    rw [first.setup, first.page, List.length_append, List.length_singleton] at others
    have fired (k m : Nat) : a.fired + hits s.page a (k + m) =
        a.fired + hits s.page a k + hits s.page a m := by rw [hits_add, Nat.add_assoc]
    have length : (s.setup.entriesGain threshold h n (firingEvents s.setup s.page a)
        (target :: rest) done.length).firings.length =
        (if s.setup.tells target then 1 else 0) + (s.setup.entriesGain threshold h n
          (firingEvents s.setup s.page a) rest (done.length + 1)).firings.length := by
      rw [Setup.entriesGain, List.zipIdx_cons, List.map_cons, Gain.sum, Gain.append_firings,
        List.length_append, entryGain_firings]
      split <;> rfl
    have all := first.trans others
    dsimp only
    rw [length, fired]
    rw [next] at all
    simp only [List.append_assoc] at all
    exact all

/-! ### Wiring -/

/-- The handler of a clause for which something is past fires at once. -/
theorem gains_past (inert : Inert react s.setup) (known : s.handlers[h]? = some a) (note : Note) :
    Gains h a { a with fired := a.fired + hits s.page a 1 }
      (.noted [.logged note] ++ .firing h .alreadyPast (firingEvents s.setup s.page a)) s
      ((s.log none note).setOff react h .alreadyPast) :=
  (gains_record known none (.logged note)).trans
    (gains_fire (s := s.log none note) inert known .alreadyPast)

variable (threshold : Binary64) (selector : String) (targets : List Target)

theorem gains_wireContentReady (inert : Inert react s.setup) (known : s.handlers[h]? = some a) :
    let g := Activation.contentReady.gain s.setup s.page threshold h selector targets
      (firingEvents s.setup s.page a)
    Gains h a
      { a with
        fired := a.fired + hits s.page a g.firings.length
        listeners := a.listeners ++ g.listeners.map (·.id) } g s
      (wireContentReady react s h selector) := by
  have asks := gains_record known none .askContentReady
  unfold wireContentReady Activation.gain
  dsimp only
  rw [record_page]
  split
  · have past := gains_past (s := s.record none .askContentReady) inert asks.known'
      (.alreadyReady selector)
    simpa [Gain.noted, Gain.firing] using asks.trans past
  · have listens := gains_listen (s := s.record none .askContentReady) asks.known'
      (.document, EventName.contentReady, .event h)
    simpa [hits, Gain.noted, Gain.listening, listenersFrom] using asks.trans listens

theorem gains_wireWindow (event : String) (inert : Inert react s.setup)
    (known : s.handlers[h]? = some a) :
    let g := (Activation.window event).gain s.setup s.page threshold h selector targets
      (firingEvents s.setup s.page a)
    Gains h a
      { a with
        fired := a.fired + hits s.page a g.firings.length
        listeners := a.listeners ++ g.listeners.map (·.id) } g s
      (wireWindow react s h selector event) := by
  have listens := gains_listen known (.global, event, .event h)
  unfold wireWindow Activation.gain
  dsimp only
  split
  swap
  · rw [Gain.append_noted_nil]
    simpa [hits, Gain.listening, listenersFrom] using listens
  have asks := listens.trans (gains_record listens.known' none .askLoaded)
  have loaded : (s.listen h .global event (.event h)).page.loaded = s.page.loaded := rfl
  rw [record_page, loaded]
  split
  · have past := gains_past (s := (s.listen h .global event (.event h)).record none .askLoaded)
      inert asks.known' (.alreadyLoaded selector)
    have all := asks.trans past
    rw [Gain.append_assoc] at all
    exact all
  · rw [Gain.append_noted_nil]
    simpa [hits, Gain.noted, Gain.listening, listenersFrom] using asks

omit threshold selector in
theorem equipped_of_ne (other : a.activation ≠ .reveal) (setup : Setup) (p : Page) (g : Gain) :
    a.equipped setup p targets g =
      { a with
        fired := a.fired + hits p a g.firings.length
        listeners := a.listeners ++ g.listeners.map (·.id) } := by
  rw [Handler.equipped, if_neg other]

/-- A handler gains what its activation asks for. -/
theorem gains_wire (inert : Inert react s.setup) (known : s.handlers[h]? = some a)
    (lt : ∀ id ∈ s.page.ids, id < s.page.nextId)
    (fresh : a.activation = .reveal → a.entries = targets.map fun _ => .fresh) :
    let g := a.activation.gain s.setup s.page threshold h selector targets
      (firingEvents s.setup s.page a)
    Gains h a (a.equipped s.setup s.page targets g) g s
      (wire react threshold s h selector a.activation targets) := by
  intro g
  have unfired : hits s.page a 0 = 0 := by
    unfold hits
    split <;> rfl
  -- What listens for the targets fires for nothing that is past.
  have listening (listens : a.activation = .hold ∨ a.activation = .singleClick ∨
      a.activation = .doubleClick ∨ ∃ event, a.activation = .element event) :
      Gains h a { a with listeners := a.listeners ++ (listenersFrom s.page.nextId
          (a.activation.heard h targets s.page.contentReady)).map (·.id) }
        (.listening (listenersFrom s.page.nextId
          (a.activation.heard h targets s.page.contentReady))) s
        (wire react threshold s h selector a.activation targets) := by
    rw [wire_eq_listens threshold selector _ targets s.page.contentReady listens]
    exact gains_listens known _
  cases kind : a.activation with
  | contentReady =>
    have gains := gains_wireContentReady threshold selector targets inert known
    have is : g = Activation.contentReady.gain s.setup s.page threshold h selector targets
        (firingEvents s.setup s.page a) := by rw [← kind]
    rw [equipped_of_ne _ (by simp [kind]), is]
    exact gains
  | window event =>
    have gains := gains_wireWindow threshold selector targets event inert known
    have is : g = (Activation.window event).gain s.setup s.page threshold h selector targets
        (firingEvents s.setup s.page a) := by rw [← kind]
    rw [equipped_of_ne _ (by simp [kind]), is]
    exact gains
  | reveal =>
    have unseen : a.entries = [] ++ targets.map fun _ => .fresh := fresh kind
    have gains := gains_wireReveals inert known unseen lt threshold (n := s.page.nextId) rfl
    have is : g = s.setup.entriesGain threshold h s.page.nextId (firingEvents s.setup s.page a)
        targets 0 := by
      simp only [g, kind, Activation.gain]
    have none : g.listeners = [] := (gain_listeners ..).trans (by rw [kind]; rfl)
    rw [Handler.equipped, if_pos kind, none, List.map_nil, List.append_nil, is]
    exact gains
  | singleClick | doubleClick | hold | element event =>
    have gains := listening (by simp [kind])
    have is : g = .listening (listenersFrom s.page.nextId
        (a.activation.heard h targets s.page.contentReady)) := by
      simp only [g, kind, Activation.gain]
    rw [equipped_of_ne _ (by simp [kind]), is]
    have none : (Gain.listening (listenersFrom s.page.nextId
      (a.activation.heard h targets s.page.contentReady))).firings.length = 0 := rfl
    rw [none, unfired, Nat.add_zero, ← kind]
    exact gains

end Scene

end TriggerSheet
