import Mathlib.Data.List.Induction
import TriggerSheet.Proofs.Scene.Cancel
import TriggerSheet.Proofs.Scene.Course

/-!
# Revealing once

An entry of a revealing handler is observed from its binding on, until its element is first seen or
its handler is unbound. It fires at its first view, also when the page tells it before it holds its
observation or after it gave it up, and never again.

## Main definitions

* `Phase` — how far the observation of an entry has come
* `Scene.InPhase` — what observers, entry, firings and journal are in each phase
* `Scene.RevealsOnce` — every observed entry fires at its first view and never again

## Main results

* `Scene.carried_sees` — callbacks only take an entry from a phase to that of being seen
* `Scene.watched_wireReveal` — an entry is watched when it is bound, unless it was seen by then
* `Scene.revealsOnce_after` — revealing is one-shot in every play
-/

namespace TriggerSheet

/-- How far the observation of an entry has come. -/
inductive Phase where
  /-- It is not observed yet. -/
  | blank
  /-- It is observed, and does not hold its observation yet. -/
  | observed
  /-- It is observed and holds its observation. -/
  | watching
  /-- It was seen before it held its observation, which is not cancelled yet. -/
  | entered
  /-- It was seen, and is not observed any more. -/
  | seen
  /-- Its handler was unbound before it was seen. -/
  | released
  deriving DecidableEq

namespace Phase

/-- The phase after the element was seen. -/
def sees : Phase → Phase
  | blank => blank
  | observed | entered => entered
  | watching | seen | released => seen

/-- The phase after the entry gave up what it held. -/
def quits : Phase → Phase
  | watching => released
  | phase => phase

theorem sees_sees (p : Phase) : p.sees.sees = p.sees := by cases p <;> rfl

end Phase

/-- The moves that concern the observation of an entry. -/
def Move.Minds (h e : Nat) : Move → Prop
  | observe h' e' _ _ | watch h' e' _ | abandon h' e' _ | quit h' e' | fire h' (.revealed e') =>
    h' = h ∧ e' = e
  | _ => False

namespace Scene

variable {s t u : Scene} {h e : Nat} {m : Move} {p : Phase}

/-- An entry was not seen, and did not fire. -/
structure Unseen (s : Scene) (h e : Nat) : Prop where
  revealed : s.isRevealed h e = false
  told : .called (.see h e true) ∉ s.events
  fired : s.firings.count ⟨h, .revealed e⟩ = 0

/-- An entry was seen, and fired once. -/
structure Seen (s : Scene) (h e : Nat) : Prop where
  revealed : s.isRevealed h e = true
  told : .called (.see h e true) ∈ s.events
  fired : s.firings.count ⟨h, .revealed e⟩ = 1

/-- An entry has one observer, and holds a registration or none. -/
def Observes (s : Scene) (h e : Nat) (active : Bool) (held : Observer → Option Nat) : Prop :=
  ∃ o, s.observersOf h e = [o] ∧ o.active = active ∧ s.held? h e = held o

/-- An entry of a revealing handler is in a phase. -/
def InPhase (s : Scene) (h e : Nat) : Phase → Prop
  | .blank => s.Unseen h e ∧ s.observersOf h e = [] ∧ s.held? h e = none
  | .observed => s.Unseen h e ∧ s.Observes h e true fun _ => none
  | .watching => s.Unseen h e ∧ s.Observes h e true fun o => some o.id
  | .entered => s.Seen h e ∧ s.Observes h e true fun _ => none
  | .seen => s.Seen h e ∧ s.Observes h e false fun _ => none
  | .released => s.Unseen h e ∧ s.Observes h e false fun _ => none

/-! ### What leaves a phase alone -/

/-- A move that does not concern the observation of an entry leaves the entry alone. -/
theorem entryAt?_move_of_not_minds (allowed : s.Allows m) (has : s.HasEntry .reveal h e)
    (keeps : ¬m.Minds h e) : (s.move m).entryAt? h e = s.entryAt? h e := by
  have unheld (held : s.HasEntry .hold h e) : False := by
    cases held.eq_of_hasEntry has
  rw [s.move_entryAt? m has.lt]
  -- A move that changes the entry minds it, or is for an entry that is held.
  have same : (s.onEntry h e · m) = id := by
    funext entry
    cases m with
    | watch h' e' id =>
      exact if_neg fun hit => keeps ⟨hit.1.symm, hit.2.symm⟩
    | quit h' e' => exact if_neg fun hit => keeps ⟨hit.1.symm, hit.2.symm⟩
    | start h' e' delay => exact if_neg fun ⟨rfl, rfl⟩ => unheld allowed.1
    | clear h' e' => exact if_neg fun ⟨rfl, rfl⟩ => unheld allowed
    | fire h' cause =>
      cases cause with
      | held e' => exact if_neg fun ⟨rfl, rfl⟩ => unheld allowed
      | revealed e' => exact if_neg fun hit => keeps ⟨hit.1.symm, hit.2.symm⟩
      | event | alreadyPast | manual => rfl
    | _ => rfl
  rw [same, Option.map_id]
  rfl

theorem isRevealed_move_of_not_minds (allowed : s.Allows m) (has : s.HasEntry .reveal h e)
    (keeps : ¬m.Minds h e) : (s.move m).isRevealed h e = s.isRevealed h e := by
  rw [isRevealed, isRevealed, entryAt?_move_of_not_minds allowed has keeps]

/-- A move frees an observation only if it minds it. -/
theorem minds_of_frees (allowed : s.Allows m) (has : s.HasEntry .reveal h e)
    (frees : m.Frees h e) : m.Minds h e := by
  cases m with
  | clear h' e' =>
    obtain ⟨rfl, rfl⟩ := frees
    cases HasEntry.eq_of_hasEntry allowed has
  | fire h' cause => cases cause <;> exact frees
  | abandon | quit => exact frees
  | _ => exact frees.elim

theorem observersOf_move_of_not_minds (orderly : s.Orderly) (allowed : s.Allows m)
    (has : s.HasEntry .reveal h e) (keeps : ¬m.Minds h e) :
    (s.move m).observersOf h e = s.observersOf h e := by
  have none : (s.newObservers m).filter (fun o => o.handler = h ∧ o.entry = e) = [] := by
    cases m with
    | observe h' e' target threshold =>
      refine List.filter_eq_nil_iff.mpr fun o mem hit => ?_
      cases List.mem_singleton.mp mem
      have hit : h' = h ∧ e' = e := by simpa using hit
      exact keeps hit
    | _ => rfl
  rw [orderly.observersOf_move allowed (mt (minds_of_frees allowed has) keeps), none,
    List.append_nil]

theorem Unseen.move (unseen : s.Unseen h e) (allowed : s.Allows m) (has : s.HasEntry .reveal h e)
    (keeps : ¬m.Minds h e) : (s.move m).Unseen h e where
  revealed := (isRevealed_move_of_not_minds allowed has keeps).trans unseen.revealed
  told := by
    rw [seen_move]
    rintro (old | new)
    · exact unseen.told old
    · cases m with
      | record firing event =>
        rw [newEvents, List.mem_singleton] at new
        exact (new ▸ allowed.1 : Event.IsRemark (.called (.see h e true))).elim
      | see h' e' entered =>
        -- The page tells an entry without firing it only if the entry was seen before.
        simp only [newEvents, List.mem_singleton, Event.called.injEq, Callback.see.injEq] at new
        obtain ⟨rfl, rfl, rfl⟩ := new
        exact absurd (allowed.2 rfl) (by simp [unseen.revealed])
      | fire h' cause => cases cause <;> simp_all [newEvents, Move.Minds]
      | _ => simp [newEvents] at new
  fired := by
    rw [count_move _ _ fun same => keeps (by rw [same]; exact ⟨rfl, rfl⟩)]
    exact unseen.fired

theorem Seen.move (seen : s.Seen h e) (allowed : s.Allows m) (has : s.HasEntry .reveal h e)
    (keeps : ¬m.Minds h e) : (s.move m).Seen h e where
  revealed := (isRevealed_move_of_not_minds allowed has keeps).trans seen.revealed
  told := (s.seen_move m).mpr (.inl seen.told)
  fired := by
    rw [count_move _ _ fun same => keeps (by rw [same]; exact ⟨rfl, rfl⟩)]
    exact seen.fired

/-- A move that does not concern the observation of an entry leaves its phase alone. -/
theorem InPhase.move (inPhase : s.InPhase h e p) (orderly : s.Orderly) (allowed : s.Allows m)
    (has : s.HasEntry .reveal h e) (keeps : ¬m.Minds h e) : (s.move m).InPhase h e p := by
  have observers := observersOf_move_of_not_minds orderly allowed has keeps
  have held : (s.move m).held? h e = s.held? h e := by
    rw [held?, held?, entryAt?_move_of_not_minds allowed has keeps]
  have observes {active : Bool} {f : Observer → Option Nat} (observes : s.Observes h e active f) :
      (s.move m).Observes h e active f := by
    obtain ⟨o, only, is, holds⟩ := observes
    exact ⟨o, observers.trans only, is, held.trans holds⟩
  -- A phase speaks of nothing but what was told, the observers and what is held.
  cases p with
  | blank =>
    obtain ⟨unseen, none, free⟩ := inPhase
    exact ⟨unseen.move allowed has keeps, observers.trans none, held.trans free⟩
  | observed | watching | released =>
    exact ⟨inPhase.1.move allowed has keeps, observes inPhase.2⟩
  | entered | seen => exact ⟨inPhase.1.move allowed has keeps, observes inPhase.2⟩

/-! ### From phase to phase -/

theorem mem_observersOf_of_made {id : Nat}
    (made : ∃ o ∈ s.page.observers, o.id = id ∧ o.handler = h ∧ o.entry = e) :
    ∃ o ∈ s.observersOf h e, o.id = id := by
  obtain ⟨o, there, same, own⟩ := made
  exact ⟨o, mem_observersOf.mpr ⟨there, own⟩, same⟩

/-- The first view of an entry. -/
theorem InPhase.fire (inPhase : s.InPhase h e p) (orderly : s.Orderly)
    (may : s.MayFire h (.revealed e)) :
    (s.move (.fire h (.revealed e))).InPhase h e p.sees := by
  obtain ⟨observed, fresh⟩ := may
  have has := orderly.hasEntry_of_isObserved observed
  obtain ⟨entry, known⟩ := has.exists_entryAt?
  have after : (s.move (.fire h (.revealed e))).entryAt? h e = some ⟨none, true⟩ := by
    rw [move_entryAt? _ _ has.lt, known]
    simp [onEntry]
  have held : (s.move (.fire h (.revealed e))).held? h e = none := by
    rw [held?, after]
    rfl
  have observers := s.observersOf_move (.fire h (.revealed e)) h e
  rw [show (s.newObservers (.fire h (.revealed e))).filter _ = [] from rfl,
    List.append_nil] at observers
  have sees (unseen : s.Unseen h e) : (s.move (.fire h (.revealed e))).Seen h e := by
    refine ⟨?_, (s.seen_move _).mpr (.inr (by simp [newEvents])), ?_⟩
    · rw [isRevealed, after]
      rfl
    · rw [move_fire_firings _ has.lt, List.count_append, unseen.fired]
      simp
  have unheld (free : s.held? h e = none) :
      (s.move (.fire h (.revealed e))).observersOf h e = s.observersOf h e := by
    simp [observers, cancels, free, Observer.without_nil]
  -- Only an entry that holds its observation has something to cancel.
  cases p with
  | blank =>
    obtain ⟨o, there, own⟩ := observed
    have mem := mem_observersOf.mpr ⟨there, own⟩
    rw [inPhase.2.1] at mem
    cases mem
  | observed | released =>
    obtain ⟨unseen, o, only, is, free⟩ := inPhase
    exact ⟨sees unseen, o, (unheld free).trans only, is, held⟩
  | watching =>
    obtain ⟨unseen, o, only, is, holds⟩ := inPhase
    refine ⟨sees unseen, o.without [o.id], ?_, by simp [Observer.without], held⟩
    rw [observers, only, cancels, holds]
    rfl
  -- An entry that was seen does not fire again.
  | entered | seen => exact absurd inPhase.1.revealed (by simp [fresh])

theorem InPhase.quit (inPhase : s.InPhase h e p) : (s.clear h e).InPhase h e p.quits := by
  have free : (s.clear h e).held? h e = none := s.held?_clear h e
  have observers : (s.clear h e).observersOf h e =
      (s.observersOf h e).map (Observer.without (s.held? h e).toList) := by
    have observers := s.observersOf_move (.quit h e) h e
    rwa [show (s.newObservers (.quit h e)).filter _ = [] from rfl, List.append_nil] at observers
  cases p with
  | watching =>
    obtain ⟨unseen, o, only, is, holds⟩ := inPhase
    refine ⟨⟨?_, ?_, ?_⟩, o.without [o.id], ?_, by simp [Observer.without], free⟩
    · rw [isRevealed, entryAt?_clear, if_pos ⟨rfl, rfl⟩, Option.map_map]
      exact unseen.revealed
    · rw [clear_events]
      simpa using unseen.told
    · rw [clear_firings]
      exact unseen.fired
    · rw [observers, only, holds]
      rfl
  | blank | observed | entered | seen | released =>
    -- An entry that holds nothing has nothing to give up.
    have none : s.held? h e = none := by
      first | exact inPhase.2.2 | (obtain ⟨_, _, _, _, none⟩ := inPhase; exact none)
    rw [clear_of_held?_eq_none none]
    exact inPhase

theorem InPhase.observe (inPhase : s.InPhase h e .blank) (target : Target) (threshold : Binary64) :
    (s.move (.observe h e target threshold)).InPhase h e .observed := by
  obtain ⟨unseen, none, free⟩ := inPhase
  refine ⟨⟨unseen.revealed, ?_, unseen.fired⟩, ⟨s.page.nextId, target, h, e, true⟩, ?_, rfl, free⟩
  · rw [seen_move]
    simpa [newEvents] using unseen.told
  · rw [observersOf_move, none]
    simp [newObservers]

theorem InPhase.watch {id : Nat} (inPhase : s.InPhase h e .observed) (has : s.HasEntry .reveal h e)
    (made : s.Allows (.watch h e id)) : (s.hold h e (some id)).InPhase h e .watching := by
  obtain ⟨unseen, o, only, is, _⟩ := inPhase
  obtain ⟨o', mem, rfl⟩ := mem_observersOf_of_made made
  rw [only, List.mem_singleton] at mem
  subst mem
  refine ⟨⟨(s.isRevealed_hold h e _ h e).trans unseen.revealed, unseen.told, unseen.fired⟩, o',
    only, is, ?_⟩
  obtain ⟨entry, known⟩ := has.exists_entryAt?
  rw [held?_hold, if_pos ⟨rfl, rfl⟩, known]
  rfl

theorem InPhase.abandon {id : Nat} (inPhase : s.InPhase h e .entered)
    (made : s.Allows (.abandon h e id)) : (s.cancel id).InPhase h e .seen := by
  obtain ⟨seen, o, only, is, free⟩ := inPhase
  obtain ⟨o', mem, rfl⟩ := mem_observersOf_of_made made
  rw [only, List.mem_singleton] at mem
  subst mem
  refine ⟨⟨seen.revealed, (s.seen_move (.abandon h e o'.id)).mpr (.inl seen.told), seen.fired⟩,
    o'.without [o'.id], ?_, by simp [Observer.without], free⟩
  have observers : (s.cancel o'.id).observersOf h e = _ :=
    s.observersOf_move (.abandon h e o'.id) h e
  rw [observers, only]
  rfl

/-! ### What callbacks, binding and unbinding do to a phase -/

/-- An entry stays in its phase, or its element is seen. -/
def Sees (h e : Nat) (s t : Scene) : Prop :=
  s.HasEntry .reveal h e → ∀ p, s.InPhase h e p → t.InPhase h e p ∨ t.InPhase h e p.sees

theorem chained_sees (h e : Nat) : Chained (Sees h e) where
  refl _ := fun _ _ inPhase => .inl inPhase
  trans := by
    intro s t u later first second has p inPhase
    have has' := later.hasEntry has
    -- Being seen twice is being seen once.
    rcases first has p inPhase with same | seen
    · exact second has' p same
    · rcases second has' _ seen with same | again
      · exact .inr same
      · exact .inr (p.sees_sees ▸ again)

theorem closed_sees {kind : Move → Prop}
    (keeps : ∀ m, kind m → m.Minds h e → m = .fire h (.revealed e)) : Closed (Sees h e) kind := by
  intro m is s orderly allowed has p inPhase
  by_cases minds : m.Minds h e
  · obtain rfl := keeps m is minds
    exact .inr (inPhase.fire orderly allowed)
  · exact .inl (inPhase.move orderly allowed has minds)

/-- While a scene is played, an observation is only minded by the first view of its element. -/
theorem eq_fire_of_runs (runs : Runs m) (minds : m.Minds h e) : m = .fire h (.revealed e) := by
  cases m with
  | fire h' cause =>
    cases cause with
    | revealed e' =>
      obtain ⟨rfl, rfl⟩ := minds
      rfl
    | event | held | alreadyPast | manual => exact minds.elim
  | observe | watch | abandon | quit => exact runs.plays.elim
  | _ => exact minds.elim

/-- Callbacks only take an entry from a phase to that of being seen. -/
theorem carried_sees (h e : Nat) : Carried (Sees h e) :=
  (chained_sees h e).carried (closed_sees fun _ => eq_fire_of_runs)

/-- The moves for one entry leave the others alone. -/
theorem closed_sees_attends {h' e' : Nat} (other : ¬(h' = h ∧ e' = e)) :
    Closed (Sees h e) (Move.Attends h' e') := by
  refine closed_sees fun m attends minds => ?_
  cases m with
  | observe | watch | abandon =>
    obtain ⟨rfl, rfl⟩ := attends
    exact absurd minds other
  | _ => first | exact attends.elim | exact minds.elim

/-- The moves that bind one handler leave the entries of others alone. -/
theorem closed_sees_binds {h' : Nat} (other : h' ≠ h) : Closed (Sees h e) (Move.Binds h') := by
  refine closed_sees fun m binds minds => ?_
  rcases binds with wires | ⟨handler, rfl⟩
  · cases m with
    | observe | watch | abandon => exact absurd (wires.symm.trans minds.1) other
    | _ => first | exact wires.elim | exact minds.elim
  · exact minds.elim

/-- The moves that unbind one handler leave the entries of others alone. -/
theorem closed_sees_unwires {h' : Nat} (other : h' ≠ h) : Closed (Sees h e) (Move.Unwires h') := by
  refine closed_sees fun m unwires minds => ?_
  cases m with
  | quit => exact absurd (unwires.symm.trans minds.1) other
  | _ => first | exact unwires.elim | exact minds.elim

theorem closed_sees_rebinds : Closed (Sees h e) Move.Rebinds := by
  refine closed_sees fun m rebinds minds => ?_
  cases m <;> first | exact rebinds.elim | exact minds.elim

/-! ### Binding -/

/-- An entry is watched, or it was seen. -/
def Watched (s : Scene) (h e : Nat) : Prop := s.InPhase h e .watching ∨ s.InPhase h e .seen

theorem Watched.sees (watched : s.Watched h e) (sees : Sees h e s t)
    (has : s.HasEntry .reveal h e) : t.Watched h e := by
  rcases watched with watching | seen
  · exact sees has _ watching
  · exact .inr ((sees has _ seen).elim id id)

section Binding

variable {depth : Nat}

/-- The observer that was just made is there when the page returns. -/
theorem made_observed (depth : Nat) (orderly : s.Orderly) (has : s.HasEntry .reveal h e)
    (threshold : Binary64) (target : Target) :
    (observed (reactWithin depth) threshold h s target e).HasEntry .reveal h e ∧
      ∃ o ∈ (observed (reactWithin depth) threshold h s target e).page.observers,
        o.id = s.page.nextId ∧ o.handler = h ∧ o.entry = e := by
  obtain ⟨-, later, -⟩ := leads_observed carried_true.toChained
    (carried_true.fires_reactWithin depth h (.revealed e)) (fun _ _ _ _ _ _ => trivial) threshold
    target (orderly.move (m := .observe h e target threshold) has)
  exact ⟨later.hasEntry ((s.extends_move (.observe h e target threshold)).hasEntry has),
    later.made (s.made_of_observe h e target threshold)⟩

/-- While an entry holds nothing yet, it is at most seen. -/
theorem phase_observed (depth : Nat) (orderly : s.Orderly) (has : s.HasEntry .reveal h e)
    (blank : s.InPhase h e .blank) (threshold : Binary64) (target : Target) :
    (observed (reactWithin depth) threshold h s target e).InPhase h e .observed ∨
      (observed (reactWithin depth) threshold h s target e).InPhase h e .entered := by
  have carried := carried_sees h e
  have told := leads_observed carried.toChained
    (carried.fires_reactWithin depth h (.revealed e))
    (fun entered => carried.does (.see h e entered)) threshold target (orderly.move has)
  exact told.2.2 ((s.extends_move _).hasEntry has) _ (blank.observe target threshold)

/-- An entry is watched when it is bound, unless it was seen by then. -/
theorem watched_wireReveal (depth : Nat) (orderly : s.Orderly) (has : s.HasEntry .reveal h e)
    (blank : s.InPhase h e .blank) (threshold : Binary64) (target : Target) :
    (wireReveal (reactWithin depth) threshold h s target e).Watched h e := by
  obtain ⟨has', made⟩ := made_observed depth orderly has threshold target
  rw [wireReveal_eq]
  rcases phase_observed depth orderly has blank threshold target with still | entered
  · -- Nothing was seen while the observer was made.
    rw [if_neg (Bool.eq_false_iff.mp still.1.revealed)]
    exact .inl (still.watch has' made)
  · rw [if_pos entered.1.revealed]
    exact .inr (entered.abandon made)

/-- Wiring other entries only lets an entry be seen. -/
theorem leads_sees_wireReveals (depth : Nat) (threshold : Binary64) (wired : List (Target × Nat))
    (others : ∀ w ∈ wired, w.2 ≠ e) (has : ∀ w ∈ wired, s.HasEntry .reveal h w.2) :
    s.Leads (Sees h e) (wired.foldl
      (fun s (target, e) => wireReveal (reactWithin depth) threshold h s target e) s) :=
  leads_wireReveals (chained_sees h e)
    (fun e' => (carried_sees h e).fires_reactWithin depth h (.revealed e')) threshold wired
    (fun w mem => closed_sees_attends fun same => others w mem same.2) has

/-- The entries of a handler are wired one after the other, each of them apart from the others. -/
theorem watched_wireReveals (depth : Nat) (threshold : Binary64) (targets : List Target)
    (orderly : s.Orderly) (has : ∀ e < targets.length, s.HasEntry .reveal h e)
    (lt : e < targets.length) (blank : s.InPhase h e .blank) :
    (targets.zipIdx.foldl
      (fun s (target, e) => wireReveal (reactWithin depth) threshold h s target e) s).Watched
      h e := by
  obtain ⟨after, split, others⟩ := zipIdx_eq_append (List.getElem?_eq_getElem lt)
  rw [split, List.foldl_append, List.foldl_cons]
  have first := fun w mem => others w (List.mem_append_left _ mem)
  have last := fun w mem => others w (List.mem_append_right _ mem)
  obtain ⟨orderly', later, sees⟩ := leads_sees_wireReveals depth threshold _
    (fun w mem => (first w mem).1) (fun w mem => has _ (first w mem).2) orderly
  have has' := fun e lt => later.hasEntry (has e lt)
  -- An entry that is not observed cannot be seen, so it is still blank at its turn.
  have blank' : _ := (sees (has e lt) _ blank).elim id id
  have watched := watched_wireReveal depth orderly' (has' e lt) blank' threshold targets[e]
  obtain ⟨orderly'', later', -⟩ := leads_wireReveal carried_true.toChained
    (carried_true.fires_reactWithin depth h (.revealed e)) (fun _ _ _ _ _ => trivial) threshold
    targets[e] (has' e lt) orderly'
  have has'' := fun e lt => later'.hasEntry (has' e lt)
  exact watched.sees (leads_sees_wireReveals depth threshold after (fun w mem => (last w mem).1)
    (fun w mem => has'' _ (last w mem).2) orderly'').2.2 (has'' e lt)

/-- Nothing was made, noted or fired for a handler that is yet to come. -/
theorem blank_add (orderly : s.Orderly) (options : Options) (sink : Sink) (selector : String)
    (clause : Clause) {targets : List Target} (lt : e < targets.length) :
    (s.move (.add (newHandler options sink selector clause .reveal targets))).InPhase
      s.handlers.length e .blank := by
  set handler := newHandler options sink selector clause .reveal targets with made
  have entry : (s.move (.add handler)).entryAt? s.handlers.length e = some .fresh := by
    rw [entryAt?, getElem?_add]
    simp [made, newHandler, lt]
  refine ⟨⟨?_, ?_, ?_⟩, ?_, ?_⟩
  · rw [isRevealed, entry]
    rfl
  · rw [seen_move]
    rintro (old | new)
    · obtain ⟨noted, mem, is⟩ := List.mem_map.mp old
      exact Nat.lt_irrefl _ (orderly.seen noted mem _ _ _ is)
    · cases new
  · refine List.count_eq_zero.mpr fun mem => ?_
    exact Nat.lt_irrefl _ (orderly.firings _ mem)
  · refine List.filter_eq_nil_iff.mpr fun o mem own => ?_
    have own : o.handler = s.handlers.length ∧ o.entry = e := by simpa using own
    have := (orderly.observers o mem).lt
    omega
  · rw [held?, entry]
    rfl

/-- All entries of a revealing handler are watched when it is added, unless they were seen. -/
theorem watched_addHandler (orderly : s.Orderly) (options : Options) (sink : Sink)
    (selector : String) (clause : Clause) (targets : List Target) (lt : e < targets.length) :
    (addHandler (reactWithin depth) options sink s selector clause .reveal targets).2.Watched
      s.handlers.length e := by
  rw [addHandler_eq]
  have blank := blank_add orderly options sink selector clause lt
  set handler := newHandler options sink selector clause .reveal targets with made
  have unfired : handler.unfired = handler := newHandler_unfired ..
  have orderly' : (s.move (.add handler)).Orderly := orderly.move unfired
  have has (e : Nat) (lt : e < targets.length) :
      (s.move (.add handler)).HasEntry .reveal s.handlers.length e :=
    hasEntry_add options sink selector clause .reveal targets s (.inr rfl) lt
  obtain ⟨orderly'', later, -⟩ := leads_wire carried_true.toChained
    (fun _ _ _ _ _ => trivial) (carried_true.fires_reactWithin depth _)
    options.revealThreshold selector .reveal targets
    (List.getElem?_eq_some_iff.mp (s.getElem?_add handler)).1 (fun _ => has) orderly'
  -- What is noted behind the wiring does not mind the entry.
  have watched := watched_wireReveals depth options.revealThreshold targets orderly' has lt blank
  have has' := later.hasEntry (has e lt)
  exact watched.imp (fun inPhase => inPhase.move (m := .record none _) orderly''
    (allows_note _ trivial id) has' id) fun inPhase => inPhase.move (m := .record none _)
      orderly'' (allows_note _ trivial id) has' id

/-- What binding a clause leaves alone. -/
theorem leads_sees_bindClause (bound : h < s.handlers.length) (options : Options) (sink : Sink)
    (selector : String) (clause : Clause) :
    s.Leads (Sees h e) (bindClause (reactWithin depth) options sink s selector clause).2 := by
  refine leads_bindClause (chained_sees h e) (fun h' later => closed_sees_binds ?_)
    (fun h' cause _ => (carried_sees h e).fires_reactWithin depth h' cause) options sink selector
    clause (Nat.le_refl _)
  omega

end Binding

/-! ### Unbinding -/

/-- An entry is not observed any more. -/
def Gone (s : Scene) (h e : Nat) : Prop := s.InPhase h e .released ∨ s.InPhase h e .seen

/-- An entry that was bound stays so when handlers are unbound, and one that is not observed any
more is never observed again. -/
def Gives (h e : Nat) (s t : Scene) : Prop :=
  s.HasEntry .reveal h e →
    (s.Watched h e ∨ s.Gone h e → t.Watched h e ∨ t.Gone h e) ∧ (s.Gone h e → t.Gone h e)

theorem chained_gives (h e : Nat) : Chained (Gives h e) where
  refl _ := fun _ => ⟨id, id⟩
  trans later first second := fun has =>
    have has' := later.hasEntry has
    ⟨fun bound => (second has').1 ((first has).1 bound),
      fun gone => (second has').2 ((first has).2 gone)⟩

theorem gives_of_quit (s : Scene) (h e : Nat) : Gives h e s (s.clear h e) := by
  intro _
  have gone (bound : s.Watched h e ∨ s.Gone h e) : (s.clear h e).Gone h e := by
    rcases bound with (watching | seen) | (released | seen)
    · exact .inl watching.quit
    · exact .inr seen.quit
    · exact .inl released.quit
    · exact .inr seen.quit
  exact ⟨fun bound => .inr (gone bound), fun is => gone (.inr is)⟩

theorem gives_of_keeps (orderly : s.Orderly) (allowed : s.Allows m) (keeps : ¬m.Minds h e) :
    Gives h e s (s.move m) := by
  intro has
  have stays {p : Phase} (inPhase : s.InPhase h e p) : (s.move m).InPhase h e p :=
    inPhase.move orderly allowed has keeps
  exact ⟨fun bound => bound.imp (fun watched => watched.imp stays stays)
    fun gone => gone.imp stays stays, fun gone => gone.imp stays stays⟩

theorem closed_gives_unwires (h' : Nat) : Closed (Gives h e) (Move.Unwires h') := by
  intro m unwires s orderly allowed
  by_cases minds : m.Minds h e
  · cases m with
    | quit h'' e' =>
      obtain ⟨rfl, rfl⟩ := minds
      exact s.gives_of_quit h'' e'
    | _ => first | exact unwires.elim | exact minds.elim
  · exact gives_of_keeps orderly allowed minds

theorem closed_gives_rebinds : Closed (Gives h e) Move.Rebinds := by
  intro m rebinds s orderly allowed
  refine gives_of_keeps orderly allowed fun minds => ?_
  cases m <;> first | exact rebinds.elim | exact minds.elim

/-- Every entry of a handler that is unbound gives up what it holds. -/
theorem held?_clears (s : Scene) (h : Nat) {e : Nat} {entries : List Nat} (mem : e ∈ entries) :
    (entries.foldl (fun s e => s.clear h e) s).held? h e = none := by
  -- An entry that was cleared last holds nothing, and later clears leave it alone.
  induction entries using List.reverseRecOn with
  | nil => cases mem
  | append_singleton entries e' ih =>
    rw [List.foldl_append, List.foldl_cons, List.foldl_nil]
    by_cases own : e = e'
    · rw [own]
      exact held?_clear _ h e'
    · rcases List.mem_append.mp mem with old | new
      · rw [held?, entryAt?_clear, if_neg fun same => own same.2]
        exact ih old
      · exact absurd (List.mem_singleton.mp new) own

theorem gone_unbindHandler (orderly : s.Orderly) (has : s.HasEntry .reveal h e)
    (bound : s.Watched h e ∨ s.Gone h e) : (s.unbindHandler h).Gone h e := by
  obtain ⟨-, -, gives⟩ :=
    leads_unbindHandler (chained_gives h e) (fun _ => closed_gives_unwires h) orderly
  have free : (s.unbindHandler h).held? h e = none := by
    obtain ⟨handler, known, _, lt⟩ := has
    simp only [unbindHandler, known]
    exact held?_clears _ h (List.mem_range.mpr lt)
  -- An entry that is still watched would hold its observation.
  rcases (gives has).1 bound with (watching | seen) | gone
  · obtain ⟨_, o, _, _, holds⟩ := watching
    rw [free] at holds
    cases holds
  · exact .inr seen
  · exact gone

/-- The entries of the handlers that a step unbinds are not observed any more. -/
theorem gone_step {step : Step} (orderly : s.Orderly) (has : s.HasEntry .reveal h e)
    (bound : s.Watched h e ∨ s.Gone h e) (mem : h ∈ s.unbinds step) :
    (s.step step).2.Gone h e := by
  have brought := step_brings (chained_gives h e) (fun h' => closed_gives_unwires h')
    (P := fun s => s.HasEntry .reveal h e ∧ (s.Watched h e ∨ s.Gone h e))
    (R := fun s => s.HasEntry .reveal h e ∧ s.Gone h e)
    (fun later gives ⟨has, bound⟩ => ⟨later.hasEntry has, (gives has).1 bound⟩)
    (fun later gives ⟨has, gone⟩ => ⟨later.hasEntry has, (gives has).2 gone⟩)
    (fun orderly ⟨has, bound⟩ => ⟨(orderly.unbindHandler h).2.hasEntry has,
      gone_unbindHandler orderly has bound⟩)
    closed_gives_rebinds (List.mem_filter.mp mem).1 orderly ⟨has, bound⟩
  exact brought.2

/-! ### Plays -/

/-- An entry was seen, or else is watched until its handler is unbound. -/
def Tended (unbound : List Nat) (s : Scene) (h e : Nat) : Prop :=
  s.InPhase h e .seen ∨ h ∉ unbound ∧ s.InPhase h e .watching ∨
    h ∈ unbound ∧ s.InPhase h e .released

theorem Tended.sees {unbound : List Nat} (tended : s.Tended unbound h e) (sees : Sees h e s t)
    (has : s.HasEntry .reveal h e) : t.Tended unbound h e := by
  rcases tended with seen | ⟨bound, watching⟩ | ⟨free, released⟩
  · exact .inl ((sees has _ seen).elim id id)
  · exact (sees has _ watching).elim (fun still => .inr (.inl ⟨bound, still⟩)) .inl
  · exact (sees has _ released).elim (fun still => .inr (.inr ⟨free, still⟩)) .inl

/-- All entries of revealing handlers are tended. -/
def AllTended (unbound : List Nat) (s : Scene) : Prop :=
  ∀ h e, s.HasEntry .reveal h e → s.Tended unbound h e

theorem allTended_bindClauses {depth : Nat} {unbound : List Nat} (orderly : s.Orderly)
    (bound : ∀ h ∈ unbound, h < s.handlers.length) (tended : s.AllTended unbound)
    (options : Options) (sink : Sink) (clauses : List (String × Clause)) :
    (bindClauses (reactWithin depth) options sink s clauses).2.AllTended unbound := by
  induction clauses generalizing s with
  | nil => exact tended
  | cons first rest ih =>
    obtain ⟨selector, clause⟩ := first
    obtain ⟨orderly', later⟩ := orderly.bindClause depth options sink selector clause
    rw [bindClauses_cons]
    refine ih orderly' (fun h mem => Nat.lt_of_lt_of_le (bound h mem) later.length_handlers) ?_
    -- An entry that was there is at most seen; a new one is watched, or was seen by now.
    intro h e has
    by_cases old : h < s.handlers.length
    · have has' := later.hasEntry_of_lt old has
      obtain ⟨-, -, sees⟩ := leads_sees_bindClause old options sink selector clause orderly
      exact (tended h e has').sees sees has'
    · have new := Nat.le_of_not_lt old
      have queried := orderly.move
        (m := .record none (.query selector (s.page.matching selector)))
        (allows_note _ trivial id)
      obtain ⟨rfl, -, lt, eq⟩ :=
        bindClause_eq_of_hasEntry orderly options sink selector clause new (.inr rfl) has
      rw [eq]
      rcases watched_addHandler queried options sink selector clause _ lt with watching | seen
      · exact .inr (.inl ⟨fun mem => old (bound _ mem), watching⟩)
      · exact .inl seen

theorem AllTended.leads {unbound : List Nat} (tended : s.AllTended unbound) (orderly : s.Orderly)
    (sees : ∀ h e, s.Leads (Sees h e) t) (steady : s.Leads Steady t) : t.AllTended unbound := by
  intro h e has
  have has' := (steady orderly).2.2.hasEntry has
  exact (tended h e has').sees (sees h e orderly).2.2 has'

theorem allTended_bind {unbound : List Nat} (orderly : s.Orderly)
    (bound : ∀ h ∈ unbound, h < s.handlers.length) (tended : s.AllTended unbound) (route : Route)
    (source : Source) : (s.bind route source).2.AllTended unbound := by
  have wires (h e : Nat) : Closed (Sees h e) (Move.Wires h.succ) :=
    (closed_sees_binds (Nat.succ_ne_self h)).mono fun _ => .inl
  have reads : s.Leads Steady (s.read source) :=
    leads_read chained_steady (closed_steady_wires 0) source
  obtain ⟨orderly', later, -⟩ := reads orderly
  have tended' : (s.read source).AllTended unbound := tended.leads orderly
    (fun h e => leads_read (chained_sees h e) (wires h e) source) reads
  have clauses : (s.bound route source).AllTended unbound :=
    allTended_bindClauses orderly'
      (fun h mem => Nat.lt_of_lt_of_le (bound h mem) later.length_handlers) tended' _ _ _
  obtain ⟨orderly'', -, -⟩ := leads_bindClauses carried_true.toChained (n := 0)
    (fun _ _ _ _ _ _ _ => trivial)
    (fun h cause _ => carried_true.fires_reactWithin (s.read source).budget h cause)
    (s.route route).1 (s.route route).2
    (source.sheet.flatMap fun b => b.clauses.map fun c => (b.selector, c)) (Nat.zero_le _) orderly'
  -- Noting the bind and handing out its handlers minds no entry.
  obtain ⟨handlers, bindings, eq⟩ := s.bind_eq route source
  rw [eq]
  refine AllTended.leads clauses orderly'' (fun h e => ?_) ?_
  · exact (chained_sees h e).leads_trans (leads_log_none (wires h e) _ rfl)
      (closed_sees_rebinds.leads (m := .rebind bindings) trivial trivial)
  · exact chained_steady.leads_trans (leads_log_none (closed_steady_wires 0) _ rfl)
      (closed_steady_rebinds.leads (m := .rebind bindings) trivial trivial)

/-- A step that does not unbind its handler only takes an entry to that of being seen. -/
theorem leads_sees_step {step : Step} (bound : h < s.handlers.length)
    (keeps : h ∉ s.unbinds step) : s.Leads (Sees h e) (s.step step).2 := by
  refine (carried_sees h e).step (fun h' later => closed_sees_binds ?_)
    (fun h' mem => closed_sees_unwires ?_) closed_sees_rebinds
  · omega
  · rintro rfl
    exact keeps mem

theorem allTended_step {unbound : List Nat} (orderly : s.Orderly)
    (bound : ∀ h ∈ unbound, h < s.handlers.length) (tended : s.AllTended unbound) (step : Step) :
    (s.step step).2.AllTended (unbound ++ s.unbinds step) := by
  by_cases binds : ∃ route source, step = .bind route source
  · obtain ⟨route, source, rfl⟩ := binds
    rw [show s.unbinds (.bind route source) = [] from rfl, List.append_nil]
    exact allTended_bind orderly bound tended route source
  intro h e has
  have steady := leads_steady_step (s := s) step
    fun route source is => binds ⟨route, source, is⟩
  have has' := (steady orderly).2.2.hasEntry has
  have before := tended h e has'
  -- No other step adds handlers, so the entry was there, and was tended.
  by_cases unbinds : h ∈ s.unbinds step
  · have bound : s.Watched h e ∨ s.Gone h e := by
      rcases before with seen | ⟨-, watching⟩ | ⟨-, released⟩
      · exact .inr (.inr seen)
      · exact .inl (.inl watching)
      · exact .inr (.inl released)
    rcases gone_step orderly has' bound unbinds with released | seen
    · exact .inr (.inr ⟨List.mem_append_right _ unbinds, released⟩)
    · exact .inl seen
  · have sees := (leads_sees_step (e := e) has'.lt unbinds orderly).2.2
    rcases before.sees sees has' with seen | ⟨here, watching⟩ | ⟨free, released⟩
    · exact .inl seen
    · exact .inr (.inl ⟨by simp [here, unbinds], watching⟩)
    · exact .inr (.inr ⟨List.mem_append_left _ free, released⟩)

theorem allTended_after {unbound : List Nat} (orderly : s.Orderly)
    (bound : ∀ h ∈ unbound, h < s.handlers.length) (tended : s.AllTended unbound)
    (steps : List Step) : (s.after steps).AllTended (unbound ++ s.unboundIn steps) := by
  -- The handlers that are unbound so far are named, and more come with each step.
  induction steps generalizing s unbound with
  | nil => simpa [unboundIn] using tended
  | cons step rest ih =>
    obtain ⟨orderly', later⟩ := orderly.step step
    rw [after_cons, unboundIn, ← List.append_assoc]
    refine ih orderly' (fun h mem => ?_) (allTended_step orderly bound tended step)
    refine Nat.lt_of_lt_of_le ?_ later.length_handlers
    rcases List.mem_append.mp mem with old | new
    · exact bound h old
    · simpa using (List.mem_filter.mp new).2

/-- Every entry of a revealing handler has fired once if its observer was ever told that the element
entered the view, and not at all otherwise. The one observer that was made for it is active just as
long as it was not told so and the handler is not unbound. -/
def RevealsOnce (unbound : List Nat) (s : Scene) : Prop :=
  ∀ h e, s.HasEntry .reveal h e →
    s.firings.count ⟨h, .revealed e⟩ = (if .called (.see h e true) ∈ s.events then 1 else 0) ∧
    ∃ o, s.observersOf h e = [o] ∧
      (o.active = true ↔ .called (.see h e true) ∉ s.events ∧ h ∉ unbound)

theorem AllTended.revealsOnce {unbound : List Nat} (tended : s.AllTended unbound) :
    s.RevealsOnce unbound := by
  intro h e has
  rcases tended h e has with ⟨seen, o, only, is, -⟩ | ⟨bound, unseen, o, only, is, -⟩ |
    ⟨free, unseen, o, only, is, -⟩
  · exact ⟨by rw [seen.fired, if_pos seen.told], o, only, by simp [is, seen.told]⟩
  · exact ⟨by rw [unseen.fired, if_neg unseen.told], o, only, by simp [is, unseen.told, bound]⟩
  · exact ⟨by rw [unseen.fired, if_neg unseen.told], o, only, by simp [is, free]⟩

/-- In every play all entries of revealing handlers are tended. -/
theorem tended_after (setup : Setup) (steps : List Step) :
    (setup.start.after steps).AllTended (setup.start.unboundIn steps) := by
  have tended : setup.start.AllTended [] := by
    intro h e has
    exact absurd has.lt (Nat.not_lt_zero h)
  exact allTended_after (orderly_start setup) (by simp) tended steps

/-- In every play, with whatever effects and whatever the page tells, revealing is one-shot. -/
theorem revealsOnce_after (setup : Setup) (steps : List Step) :
    (setup.start.after steps).RevealsOnce (setup.start.unboundIn steps) :=
  (tended_after setup steps).revealsOnce

end Scene

end TriggerSheet
