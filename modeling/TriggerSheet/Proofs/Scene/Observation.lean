import TriggerSheet.Proofs.Scene.Reveal
import TriggerSheet.Proofs.Scene.Trace

/-!
# When observers are cancelled

The page may tell an observer something before it returns from making it. If the element entered
the view by then, the observer is cancelled as soon as the page returns. Otherwise its entry holds
it, and it is cancelled at the first view of the element, or when the handler is unbound, whichever
comes first.

## Main definitions

* `ClauseBind.returned` — the scene in which the page returns from making an observer
* `ClauseBind.Makes` — an observer is made for a clause
* `Ending` — what happened before an observer is cancelled
* `Scene.Awaits`, `Scene.Ended` — an observer is held, or was cancelled at its ending
* `Scene.Attended` — an observer is in one of the two states

## Main results

* `Scene.Awaits.fire`, `Scene.Awaits.quit` — what ends an observation
* `Scene.Ended.move` — an observation that has ended stays so
* `Scene.attended_after` — in every play, every observer is held, or was cancelled at its ending
-/

namespace TriggerSheet

namespace ClauseBind

variable (b : ClauseBind)

/-- The elements that the selector of the clause matches. -/
def targets : List Target := b.scene.page.matching b.selector

/-- The scene in which the handler of the clause was added and registers nothing yet. -/
def added : Scene :=
  (b.scene.record none (.query b.selector b.targets)).move (.add (Scene.newHandler b.options b.sink
    b.selector b.clause b.activation b.targets))

/-- The scene in which the entries before one are observed. -/
def upTo (e : Nat) : Scene :=
  (b.targets.take e).zipIdx.foldl (fun s (target, e) => Scene.wireReveal
    (Scene.reactWithin b.depth) b.options.revealThreshold b.scene.handlers.length s target e)
    b.added

/-- The scene in which the page returns from making the observer of an entry, which it may have
told something meanwhile. -/
def returned (target : Target) (e : Nat) : Scene :=
  Scene.observed (Scene.reactWithin b.depth) b.options.revealThreshold b.scene.handlers.length
    (b.upTo e) target e

/-- The clause makes an observer for an element that it finds. -/
structure Makes (o : Observer) (target : Target) : Prop where
  reveals : b.activation = .reveal
  handler : b.scene.handlers.length = o.handler
  found : b.targets[o.entry]? = some target
  id : (b.upTo o.entry).page.nextId = o.id

end ClauseBind

/-- What happened before the observer of an entry is cancelled, after the page made it in some scene
and while some handlers are unbound. -/
inductive Ending (made : Scene) (unbound : List Nat) (h e : Nat) (before : List Event) : Prop
  /-- The element entered the view while the page made the observer, and the page has returned. -/
  | atReturn (told : .called (.see h e true) ∈ made.events) (now : before = made.events)
  /-- The observer was just told, for the first time, that the element entered the view. -/
  | atView (earlier : List Event) (since : made.events <+: earlier)
      (untold : .called (.see h e true) ∉ earlier)
      (now : before = earlier ++ [.called (.see h e true)])
  /-- The handler is unbound before the element entered the view. -/
  | atUnbind (since : made.events <+: before) (untold : .called (.see h e true) ∉ before)
      (free : h ∈ unbound)

namespace Scene

variable {s t r : Scene} {h e id : Nat} {m : Move} {unbound : List Nat}

/-! ### While the page makes the observer -/

/-- An entry that holds nothing goes on so, and its observer is not cancelled. -/
def StaysFree (h e id : Nat) (s t : Scene) : Prop :=
  s.HasEntry .reveal h e → (∃ o ∈ s.page.observers, o.id = id ∧ o.handler = h ∧ o.entry = e) →
    s.held? h e = none → .cancel id ∉ s.events → t.held? h e = none ∧ .cancel id ∉ t.events

theorem chained_staysFree (h e id : Nat) : Chained (StaysFree h e id) where
  refl _ := fun _ _ free kept => ⟨free, kept⟩
  trans later first second := fun has made free kept =>
    have ⟨free', kept'⟩ := first has made free kept
    second (later.hasEntry has) (later.made made) free' kept'

/-- Callbacks spare the observer of an entry that does not hold it yet. -/
theorem carried_staysFree (h e id : Nat) : Carried (StaysFree h e id) := by
  refine (chained_staysFree h e id).carried fun m runs s orderly allowed has made free kept => ?_
  have plays := runs.plays
  constructor
  · cases holds : (s.move m).held? h e with
    | none => rfl
    | some id' =>
      rcases s.held?_of_move m allowed holds with old | rfl | ⟨delay, rfl, -⟩
      · exact old.symm.trans free
      · exact plays.elim
      · cases HasEntry.eq_of_hasEntry allowed.1 has
  · rw [cancel_mem_move allowed]
    rintro (old | new)
    · exact kept old
    -- Nothing is held that a first view could cancel.
    obtain ⟨o, there, rfl, rfl, rfl⟩ := made
    have frees := orderly.frees_of_observer allowed there new
    obtain rfl := eq_fire_of_runs runs (minds_of_frees allowed has frees)
    simp [cancels, free] at new

/-- An observer is not cancelled before the page returns from making it. -/
theorem kept_observed (depth : Nat) (orderly : s.Orderly) (has : s.HasEntry .reveal h e)
    (free : s.held? h e = none) (threshold : Binary64) (target : Target) :
    .cancel s.page.nextId ∉ (observed (reactWithin depth) threshold h s target e).events := by
  have carried := carried_staysFree h e s.page.nextId
  have told := leads_observed carried.toChained (carried.fires_reactWithin depth h (.revealed e))
    (fun entered => carried.does (.see h e entered)) threshold target (orderly.move has)
  refine (told.2.2 ((s.extends_move _).hasEntry has) (s.made_of_observe h e target threshold) free
    ?_).2
  rw [cancel_mem_move (m := .observe h e target threshold) has]
  -- The number was not used before.
  rintro (old | new)
  · exact Nat.lt_irrefl _ (orderly.numbered.lt _ (orderly.cancelled _ old))
  · cases new

/-! ### What ends an observation -/

/-- An entry holds the observer that was made for it. -/
structure Awaits (s r : Scene) (h e id : Nat) : Prop where
  watching : s.InPhase h e .watching
  holds : s.held? h e = some id
  since : r.events <+: s.events
  kept : .cancel id ∉ s.events

/-- An observer was cancelled once, at its ending, and its entry holds it no more. -/
structure Ended (s r : Scene) (unbound : List Nat) (h e id : Nat) : Prop where
  gone : s.Gone h e
  once : ∃ before rest, s.events = before ++ .cancel id :: rest ∧ .cancel id ∉ before ∧
    .cancel id ∉ rest ∧ Ending r unbound h e before

theorem events_prefix_move (s : Scene) (m : Move) : s.events <+: (s.move m).events := by
  obtain ⟨asked, -, grows⟩ := s.move_events m
  exact ⟨s.newEvents m ++ asked, by rw [grows, List.append_assoc]⟩

/-- A registration that a move cancels is cancelled behind what the move is told. -/
theorem events_of_cancels (allowed : s.Allows m) (kept : .cancel id ∉ s.events)
    (all : s.cancels m = [id]) :
    ∃ rest, (s.move m).events = s.events ++ m.heard ++ .cancel id :: rest ∧
      .cancel id ∉ s.events ++ m.heard ∧ .cancel id ∉ rest := by
  obtain ⟨first, last, grows, still, heard⟩ := s.move_events_cancels allowed
  obtain rfl := heard (by simp [all])
  rw [all] at grows
  refine ⟨last, by simpa using grows, ?_, (still id).2⟩
  rw [List.mem_append, not_or]
  exact ⟨kept, (still id).1⟩

section Ending

variable (orderly : s.Orderly) (allowed : s.Allows m) (has : s.HasEntry .reveal h e)
  (made : ∃ o ∈ s.page.observers, o.id = id ∧ o.handler = h ∧ o.entry = e)

include orderly allowed has made

theorem Awaits.move (awaits : s.Awaits r h e id) (keeps : ¬m.Minds h e) :
    (s.move m).Awaits r h e id where
  watching := awaits.watching.move orderly allowed has keeps
  holds := by
    rw [held?, entryAt?_move_of_not_minds allowed has keeps]
    exact awaits.holds
  since := awaits.since.trans (s.events_prefix_move m)
  kept := by
    rw [cancel_mem_move allowed]
    rintro (old | new)
    · exact awaits.kept old
    · obtain ⟨o, there, rfl, rfl, rfl⟩ := made
      exact keeps (minds_of_frees allowed has (orderly.frees_of_observer allowed there new))

/-- An observation that has ended stays so, whatever is told of the element. -/
theorem Ended.move (ended : s.Ended r unbound h e id)
    (keeps : m.Minds h e → m = .fire h (.revealed e) ∨ m = .quit h e) :
    (s.move m).Ended r unbound h e id where
  gone := by
    by_cases minds : m.Minds h e
    · rcases keeps minds with rfl | rfl
      · exact ended.gone.elim (fun released => .inr (released.fire orderly allowed))
          fun seen => .inr (seen.fire orderly allowed)
      · exact ended.gone.elim (fun released => .inl released.quit) fun seen => .inr seen.quit
    · exact ended.gone.imp (·.move orderly allowed has minds) (·.move orderly allowed has minds)
  once := by
    have free : s.held? h e = none := by
      rcases ended.gone with ⟨-, _, _, _, free⟩ | ⟨-, _, _, _, free⟩ <;> exact free
    have left : id ∉ s.cancels m := fun mem => by
      obtain ⟨o, there, rfl, rfl, rfl⟩ := made
      have frees := orderly.frees_of_observer allowed there mem
      rcases keeps (minds_of_frees allowed has frees) with rfl | rfl <;>
        simp [cancels, free] at mem
    obtain ⟨before, rest, split, first, last, ending⟩ := ended.once
    obtain ⟨more, grows⟩ := s.events_prefix_move m
    have none : .cancel id ∉ more := by
      have count := count_cancel_move allowed id
      rw [← grows, List.count_append, List.count_eq_zero.mpr left] at count
      exact List.count_eq_zero.mp (by omega)
    refine ⟨before, rest ++ more, by rw [← grows, split]; simp, first, ?_, ending⟩
    rw [List.mem_append, not_or]
    exact ⟨last, none⟩

end Ending

/-- The first view of the element ends the observation. -/
theorem Awaits.fire (awaits : s.Awaits r h e id) (orderly : s.Orderly)
    (may : s.MayFire h (.revealed e)) :
    (s.move (.fire h (.revealed e))).Ended r unbound h e id where
  gone := .inr (awaits.watching.fire orderly may)
  once := by
    obtain ⟨rest, grows, first, last⟩ := events_of_cancels (m := .fire h (.revealed e)) may
      awaits.kept (by rw [cancels, awaits.holds]; rfl)
    exact ⟨_, rest, grows, first, last, .atView _ awaits.since awaits.watching.1.told rfl⟩

/-- So does the unbinding of the handler. -/
theorem Awaits.quit (awaits : s.Awaits r h e id) (free : h ∈ unbound) :
    (s.move (.quit h e)).Ended r unbound h e id where
  gone := .inl awaits.watching.quit
  once := by
    obtain ⟨rest, grows, first, last⟩ := events_of_cancels (m := .quit h e) trivial awaits.kept
      (by rw [cancels, awaits.holds]; rfl)
    rw [show (Move.quit h e).heard = [] from rfl, List.append_nil] at grows first
    exact ⟨_, rest, grows, first, last, .atUnbind awaits.since awaits.watching.1.told free⟩

/-! ### From the binding on -/

/-- An observer was made for an entry, which holds it until it is cancelled at its ending. -/
structure Attended (s r : Scene) (unbound : List Nat) (h e id : Nat) : Prop where
  has : s.HasEntry .reveal h e
  made : ∃ o ∈ s.page.observers, o.id = id ∧ o.handler = h ∧ o.entry = e
  state : s.Awaits r h e id ∨ s.Ended r unbound h e id

/-- An observer that was attended to is so still. -/
def KeepsAttended (r : Scene) (unbound : List Nat) (h e id : Nat) (s t : Scene) : Prop :=
  s.Attended r unbound h e id → t.Attended r unbound h e id

theorem chained_keepsAttended (r : Scene) (unbound : List Nat) (h e id : Nat) :
    Chained (KeepsAttended r unbound h e id) :=
  ⟨fun _ attended => attended, fun _ first second => second ∘ first⟩

theorem closed_keepsAttended {kind : Move → Prop} (keeps : ∀ m, kind m → m.Minds h e →
      m = .fire h (.revealed e) ∨ m = .quit h e ∧ h ∈ unbound) :
    Closed (KeepsAttended r unbound h e id) kind := by
  intro m is s orderly allowed ⟨has, made, state⟩
  refine ⟨(s.extends_move m).hasEntry has, (s.extends_move m).made made, ?_⟩
  rcases state with awaits | ended
  · by_cases minds : m.Minds h e
    · rcases keeps m is minds with rfl | ⟨rfl, free⟩
      · exact .inr (awaits.fire orderly allowed)
      · exact .inr (awaits.quit free)
    · exact .inl (awaits.move orderly allowed has made minds)
  · exact .inr (ended.move orderly allowed has made fun minds =>
      (keeps m is minds).imp_right (·.1))

theorem carried_keepsAttended (r : Scene) (unbound : List Nat) (h e id : Nat) :
    Carried (KeepsAttended r unbound h e id) :=
  (chained_keepsAttended r unbound h e id).carried
    (closed_keepsAttended fun _ runs minds => .inl (eq_fire_of_runs runs minds))

/-- The moves after the binding of the handler attend to the observer. -/
theorem closed_keepsAttended_bound (r : Scene) (unbound : List Nat) (h e id : Nat) :
    Closed (KeepsAttended r unbound h e id) fun m => ¬m.Equips h ∧ (m.Unwires h → h ∈ unbound) := by
  refine closed_keepsAttended fun m is minds => ?_
  cases m with
  | observe | watch | abandon => exact absurd minds.1 is.1
  | quit h' e' =>
    obtain ⟨rfl, rfl⟩ := minds
    exact .inr ⟨rfl, is.2 rfl⟩
  | fire h' cause =>
    cases cause with
    | revealed e' =>
      obtain ⟨rfl, rfl⟩ := minds
      exact .inl rfl
    | event | held | alreadyPast | manual => exact minds.elim
  | _ => exact minds.elim

/-- When the page has returned from making the observer, the entry comes to hold it, or it is
cancelled. -/
theorem attended_wireReveal (depth : Nat) (orderly : s.Orderly) (has : s.HasEntry .reveal h e)
    (blank : s.InPhase h e .blank) (threshold : Binary64) (target : Target) (unbound : List Nat) :
    (wireReveal (reactWithin depth) threshold h s target e).Attended
      (observed (reactWithin depth) threshold h s target e) unbound h e s.page.nextId := by
  have kept := kept_observed depth orderly has blank.2.2 threshold target
  obtain ⟨has', made⟩ := made_observed depth orderly has threshold target
  rw [wireReveal_eq]
  rcases phase_observed depth orderly has blank threshold target with still | entered
  · rw [if_neg (Bool.eq_false_iff.mp still.1.revealed)]
    have watching := still.watch has' made
    refine ⟨(extends_move _ (.watch h e s.page.nextId)).hasEntry has', made, .inl ⟨watching, ?_,
      List.prefix_rfl, kept⟩⟩
    obtain ⟨entry, known⟩ := has'.exists_entryAt?
    rw [held?_hold, if_pos ⟨rfl, rfl⟩, known]
    rfl
  · rw [if_pos entered.1.revealed]
    have later' := extends_move (observed (reactWithin depth) threshold h s target e)
      (.abandon h e s.page.nextId)
    refine ⟨later'.hasEntry has', later'.made made, .inr ⟨.inr (entered.abandon made), ?_⟩⟩
    obtain ⟨rest, grows, first, last⟩ :=
      events_of_cancels (m := .abandon h e s.page.nextId) made kept rfl
    rw [show (Move.abandon h e s.page.nextId).heard = [] from rfl, List.append_nil] at grows first
    exact ⟨_, rest, grows, first, last, .atReturn entered.1.told rfl⟩

/-- Other entries of the handler that are wired leave the observer alone. -/
theorem leads_keepsAttended_wireReveals (r : Scene) (unbound : List Nat) (id depth : Nat)
    (threshold : Binary64) (wired : List (Target × Nat)) (others : ∀ w ∈ wired, w.2 ≠ e)
    (has : ∀ w ∈ wired, s.HasEntry .reveal h w.2) :
    s.Leads (KeepsAttended r unbound h e id) (wired.foldl
      (fun s (target, e) => wireReveal (reactWithin depth) threshold h s target e) s) := by
  have carried := carried_keepsAttended r unbound h e id
  refine leads_wireReveals carried.toChained
    (fun e' => carried.fires_reactWithin depth h (.revealed e')) threshold wired
    (fun w mem => closed_keepsAttended fun m attends minds => ?_) has
  cases m with
  | observe | watch | abandon => exact absurd (attends.2.symm.trans minds.2) (others w mem)
  | _ => first | exact attends.elim | exact minds.elim

end Scene

namespace ClauseBind

variable {b : ClauseBind} {h e : Nat}

/-- The entries of a revealing clause are made for the elements that it finds. -/
theorem reveals_of_hasEntry (orderly : b.scene.Orderly) (new : b.scene.handlers.length ≤ h)
    (has : b.after.HasEntry .reveal h e) :
    h = b.scene.handlers.length ∧ b.activation = .reveal ∧ e < b.targets.length ∧
      b.after = (b.targets.zipIdx.foldl (fun s (target, e) => Scene.wireReveal
        (Scene.reactWithin b.depth) b.options.revealThreshold b.scene.handlers.length s target e)
        b.added).log none (.boundClause b.selector b.clause.name .reveal b.targets.length) := by
  obtain ⟨own, is, lt, eq⟩ := Scene.bindClause_eq_of_hasEntry orderly b.options b.sink b.selector
    b.clause new (.inr rfl) has
  refine ⟨own, is, lt, eq.trans ?_⟩
  rw [Scene.addHandler_eq, added, show b.activation = .reveal from is]
  rfl

/-- The elements that a scene finds are noted, and nothing else changes. -/
theorem orderly_queried (orderly : b.scene.Orderly) :
    (b.scene.record none (.query b.selector b.targets)).Orderly :=
  orderly.move (m := .record none (.query b.selector b.targets)) (Scene.allows_note _ trivial id)

theorem orderly_added (orderly : b.scene.Orderly) : b.added.Orderly :=
  (orderly_queried orderly).move (Scene.newHandler_unfired ..)

theorem added_eq (is : b.activation = .reveal) :
    b.added = (b.scene.record none (.query b.selector b.targets)).move (.add
      (Scene.newHandler b.options b.sink b.selector b.clause .reveal b.targets)) := by
  rw [added, is]

theorem hasEntry_added (is : b.activation = .reveal) (lt : e < b.targets.length) :
    b.added.HasEntry .reveal b.scene.handlers.length e := by
  have has := Scene.hasEntry_add b.options b.sink b.selector b.clause .reveal b.targets
    (b.scene.record none (.query b.selector b.targets)) (.inr rfl) lt
  rwa [Scene.record_handlers, ← added_eq is] at has

theorem blank_added (orderly : b.scene.Orderly) (is : b.activation = .reveal)
    (lt : e < b.targets.length) : b.added.InPhase b.scene.handlers.length e .blank := by
  have blank := Scene.blank_add (orderly_queried orderly) b.options b.sink b.selector b.clause lt
  rwa [Scene.record_handlers, ← added_eq is] at blank

/-- The observer of an entry of the clause is attended to when the clause is bound. -/
theorem attended (orderly : b.scene.Orderly) (new : b.scene.handlers.length ≤ h)
    (has : b.after.HasEntry .reveal h e) (unbound : List Nat) :
    ∃ target, b.targets[e]? = some target ∧
      b.after.Attended (b.returned target e) unbound h e (b.upTo e).page.nextId := by
  obtain ⟨rfl, is, lt, eq⟩ := reveals_of_hasEntry orderly new has
  obtain ⟨target, found⟩ : ∃ target, b.targets[e]? = some target :=
    ⟨_, List.getElem?_eq_getElem lt⟩
  -- The entries before this one are observed first,
  obtain ⟨after, split, others⟩ := Scene.zipIdx_eq_append found
  have first := fun w mem => others w (List.mem_append_left _ mem)
  have last := fun w mem => others w (List.mem_append_right _ mem)
  obtain ⟨orderly₁, later₁, sees⟩ := Scene.leads_sees_wireReveals b.depth
    b.options.revealThreshold (b.targets.take e).zipIdx (fun w mem => (first w mem).1)
    (fun w mem => hasEntry_added is (first w mem).2) (orderly_added orderly)
  have has₁ := later₁.hasEntry (hasEntry_added is lt)
  have blank₁ : _ :=
    (sees (hasEntry_added is lt) _ (blank_added orderly is lt)).elim id id
  -- then this one,
  have attended := Scene.attended_wireReveal b.depth orderly₁ has₁ blank₁
    b.options.revealThreshold target unbound
  obtain ⟨orderly₂, later₂, -⟩ := Scene.leads_wireReveal Scene.carried_true.toChained
    (Scene.carried_true.fires_reactWithin b.depth _ (.revealed e)) (fun _ _ _ _ _ => trivial)
    b.options.revealThreshold target has₁ orderly₁
  -- and then those behind it, before the bind is noted.
  obtain ⟨orderly₃, -, keeps⟩ := Scene.leads_keepsAttended_wireReveals (b.returned target e)
    unbound (b.upTo e).page.nextId b.depth b.options.revealThreshold after
    (fun w mem => (last w mem).1)
    (fun w mem => later₂.hasEntry (later₁.hasEntry (hasEntry_added is (last w mem).2))) orderly₂
  have notes : Scene.Closed (Scene.KeepsAttended (b.returned target e) unbound
      b.scene.handlers.length e (b.upTo e).page.nextId)
      fun m => ∃ note, m = .record none (.logged note) :=
    Scene.closed_keepsAttended fun m ⟨note, is⟩ minds => by
      subst is
      exact minds.elim
  refine ⟨target, found, ?_⟩
  rw [eq, split, List.foldl_append, List.foldl_cons]
  exact notes _ ⟨_, rfl⟩ _ orderly₃ (Scene.allows_note _ trivial id) (keeps attended)

end ClauseBind

namespace Scene

/-- In every play, the entry of an observer holds it, or it was cancelled once, at its ending. -/
theorem attended_after (setup : Setup) (steps : List Step) {o : Observer}
    (mem : o ∈ (setup.start.after steps).page.observers) :
    ∃ b ∈ setup.start.bindsIn steps, ∃ target, b.Makes o target ∧
      (setup.start.after steps).Attended (b.returned target o.entry)
        (setup.start.unboundIn steps) o.handler o.entry o.id := by
  have has := (orderly_after setup steps).observers o mem
  obtain ⟨b, bound, new, has'⟩ :=
    exists_bind_of_hasEntry (orderly_start setup) (Nat.zero_le _) has
  have orderly := orderly_of_mem_bindsIn (orderly_start setup) bound
  obtain ⟨own, is, -⟩ := ClauseBind.reveals_of_hasEntry orderly new has'
  obtain ⟨target, found, attended⟩ :=
    ClauseBind.attended orderly new has' (setup.start.unboundIn steps)
  -- The rest of the play gives the handler no observers, and unbinds it only by its steps.
  have leads := leads_of_mem_bindsIn (chained_keepsAttended ..) (closed_keepsAttended_bound
    (b.returned target o.entry) _ _ o.entry (b.upTo o.entry).page.nextId) has'.lt bound
  have bounds := orderly.bindClause b.depth b.options b.sink b.selector b.clause
  have attended' := (leads bounds.1).2.2 attended
  -- The entry has one observer, so this is the one that was made for it.
  obtain ⟨-, o', only, -⟩ := (tended_after setup steps).revealsOnce _ _ has
  obtain ⟨o'', there, same⟩ := mem_observersOf_of_made attended'.made
  have one : o ∈ observersOf _ o.handler o.entry := mem_observersOf.mpr ⟨mem, rfl, rfl⟩
  rw [only, List.mem_singleton] at one there
  rw [there, ← one] at same
  exact ⟨b, bound, target, ⟨is, own.symm, found, same.symm⟩, same ▸ attended'⟩

end Scene

end TriggerSheet
