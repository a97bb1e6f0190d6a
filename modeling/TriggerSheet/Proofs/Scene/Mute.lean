import Mathlib.Data.List.Count
import TriggerSheet.Proofs.Scene.Handed
import TriggerSheet.Proofs.Scene.Release

/-!
# When listeners are cancelled

A listener is cancelled once, in the step that unbinds its handler, and by nothing else. Its handler
is told so once, because it is handed out at one place, and has the listener once in its list.

## Main definitions

* `Scene.OnlyListens` — a number belongs to listeners of one handler
* `Scene.Spares` — no listener with a number is cancelled

## Main results

* `Scene.count_cancel_unbindHandlers` — what unbinding some handlers cancels
* `Scene.count_cancel_listener` — a listener is cancelled once if its handler is unbound, and else
  never
-/

namespace TriggerSheet.Scene

variable {s t : Scene} {h id : Nat} {m : Move}

/-! ### The lists of listeners -/

/-- The numbers of the listeners of a handler. -/
def listenerIds? (s : Scene) (h : Nat) : Option (List Nat) := s.handlers[h]?.map Handler.listeners

/-- A handler lists a listener that is made for it behind the others. -/
theorem listenerIds?_listen {ids : List Nat} (listed : s.listenerIds? h = some ids) (scope : Scope)
    (event : String) (c : Callback) :
    (s.listen h scope event c).listenerIds? h = some (ids ++ [s.page.nextId]) := by
  obtain ⟨handler, known, rfl⟩ := Option.map_eq_some_iff.mp listed
  rw [listenerIds?, s.listen_handlers h scope event c known, if_pos rfl]
  rfl

/-- No other move changes the list of a handler that is there. -/
theorem listenerIds?_move (bound : h < s.handlers.length)
    (others : ∀ scope event c, m ≠ .listen h scope event c) :
    (s.move m).listenerIds? h = s.listenerIds? h := by
  by_cases listens : ∃ h' scope event c, m = .listen h' scope event c
  · obtain ⟨h', scope, event, c, rfl⟩ := listens
    have other : h' ≠ h := fun same => others scope event c (same ▸ rfl)
    have known := List.getElem?_eq_getElem bound
    rw [listenerIds?, move, s.listen_handlers h' scope event c known, if_neg other, ← known,
      listenerIds?]
  by_cases adds : ∃ new, m = .add new
  · obtain ⟨new, rfl⟩ := adds
    rw [listenerIds?, move, List.getElem?_append_left bound, listenerIds?]
  · rw [listenerIds?, ← List.getElem?_map, s.move_listenerIds_of_ne m
      (fun h scope event c eq => listens ⟨h, scope, event, c, eq⟩) fun new eq => adds ⟨new, eq⟩,
      List.getElem?_map, listenerIds?]

/-- No handler has a listener twice. -/
def Distinct (s : Scene) : Prop := ∀ h ids, s.listenerIds? h = some ids → ids.Nodup

theorem distinct_move (orderly : s.Orderly) (allowed : s.Allows m) (distinct : s.Distinct) :
    (s.move m).Distinct := by
  intro h ids has
  by_cases bound : h < s.handlers.length
  · by_cases listens : ∃ scope event c, m = .listen h scope event c
    · obtain ⟨scope, event, c, rfl⟩ := listens
      have listed : s.listenerIds? h = some s.handlers[h].listeners := by
        rw [listenerIds?, List.getElem?_eq_getElem bound]
        rfl
      obtain rfl := Option.some.inj (has.symm.trans (listenerIds?_listen listed scope event c))
      -- The number of a new listener was not used before.
      have new : s.page.nextId ∉ s.handlers[h].listeners := fun mem => by
        obtain ⟨l, registered, same, -⟩ :=
          orderly.owned h _ _ (List.getElem?_eq_getElem bound) mem
        exact Nat.lt_irrefl _ (same ▸ orderly.numbered.lt _ (Page.id_listener_mem registered))
      exact List.nodup_append.mpr ⟨distinct h _ listed, List.nodup_singleton _,
        fun id mem id' is same => new (List.mem_singleton.mp is ▸ same ▸ mem)⟩
    · rw [listenerIds?_move bound fun scope event c is => listens ⟨scope, event, c, is⟩] at has
      exact distinct h ids has
  · obtain ⟨handler, known, rfl⟩ := Option.map_eq_some_iff.mp has
    have lt := (List.getElem?_eq_some_iff.mp known).1
    have length := s.move_handlers_length m
    cases m with
    | add new =>
      -- A handler that is added has no listeners yet.
      have is : handler = new := by
        rw [move, List.getElem?_append_right (Nat.le_of_not_lt bound)] at known
        exact List.mem_singleton.mp (List.mem_of_getElem? known)
      have none : new.listeners = [] := congrArg (·.listeners) allowed.symm
      rw [is, none]
      exact List.nodup_nil
    | _ =>
      rw [length] at lt
      exact absurd lt bound

theorem distinct_after (setup : Setup) (steps : List Step) : (setup.start.after steps).Distinct :=
  after_of_move (fun _ _ orderly allowed => distinct_move orderly allowed) setup nofun steps

/-- The list of a handler stays once the handler is bound. -/
def SameIds (h : Nat) (s t : Scene) : Prop :=
  h < s.handlers.length → t.listenerIds? h = s.listenerIds? h

theorem chained_sameIds (h : Nat) : Chained (SameIds h) where
  refl _ := fun _ => rfl
  trans later first second := fun bound =>
    (second (Nat.lt_of_lt_of_le bound later.length_handlers)).trans (first bound)

theorem closed_sameIds {kind : Move → Prop} (others : ∀ m, kind m → ¬m.Equips h) :
    Closed (SameIds h) kind := by
  intro m is s _ _ bound
  refine listenerIds?_move bound fun scope event c same => ?_
  subst same
  exact others _ is rfl

/-! ### What cancels a listener -/

/-- A number belongs to no registration but to a listener of a handler. -/
structure OnlyListens (s : Scene) (h id : Nat) : Prop where
  listeners : ∀ l ∈ s.page.listeners, l.id = id → l.callback.handler = h
  observers : ∀ o ∈ s.page.observers, o.id ≠ id
  timers : ∀ t ∈ s.page.timers, t.id ≠ id

theorem Orderly.onlyListens (orderly : s.Orderly) {l : Listener} (mem : l ∈ s.page.listeners) :
    s.OnlyListens l.callback.handler l.id where
  listeners l' mem' same := by rw [orderly.numbered.listener_eq mem' mem same]
  observers _ mem' same := orderly.numbered.listener_ne_observer mem mem' same.symm
  timers _ mem' same := orderly.numbered.listener_ne_timer mem mem' same.symm

theorem OnlyListens.of_later (only : t.OnlyListens h id) (later : s.Extends t) :
    s.OnlyListens h id where
  listeners l mem same := by
    obtain ⟨l', mem', renewed⟩ := later.page.listener mem
    have ids : l'.id = l.id := congrArg (·.id) renewed
    have callbacks : l'.callback = l.callback := congrArg (·.callback) renewed
    exact callbacks ▸ only.listeners l' mem' (ids.trans same)
  observers o mem same := by
    obtain ⟨o', mem', renewed⟩ := later.page.observer mem
    have ids : o'.id = o.id := congrArg (·.id) renewed
    exact only.observers o' mem' (ids.trans same)
  timers timer mem same := by
    obtain ⟨timer', mem', renewed⟩ := later.page.timer mem
    have ids : timer'.id = timer.id := congrArg (·.id) renewed
    exact only.timers timer' mem' (ids.trans same)

/-- No listener with a number is cancelled. -/
def Spares (h id : Nat) (s t : Scene) : Prop :=
  s.Extends t ∧ (t.OnlyListens h id → t.events.count (.cancel id) = s.events.count (.cancel id))

theorem chained_spares (h id : Nat) : Chained (Spares h id) where
  refl s := ⟨Extends.refl s, fun _ => rfl⟩
  trans _ first second := ⟨first.1.trans second.1, fun only =>
    (second.2 only).trans (first.2 (only.of_later second.1))⟩

theorem closed_spares {kind : Move → Prop} (keeps : ∀ m, kind m → m ≠ .mute h id) :
    Closed (Spares h id) kind := by
  intro m is s orderly allowed
  have later := s.extends_move m
  refine ⟨later, fun only => ?_⟩
  have before := only.of_later later
  -- What is cancelled is a listener, and only unbinding its handler cancels it.
  have none : id ∉ s.cancels m := fun mem => by
    rcases orderly.owner_of_cancels allowed mem with
      ⟨l, there, same, mutes⟩ | ⟨timer, there, same, -⟩ | ⟨o, there, same, -⟩
    · exact keeps m is (before.listeners l there same ▸ mutes)
    · exact before.timers timer there same
    · exact before.observers o there same
  rw [count_cancel_move allowed, List.count_eq_zero.mpr none, Nat.add_zero]

/-! ### Unbinding -/

theorem foldl_cancel_events (s : Scene) (ids : List Nat) :
    (ids.foldl cancel s).events = s.events ++ ids.map .cancel := by
  induction ids generalizing s with
  | nil => simp
  | cons id rest ih =>
    rw [List.foldl_cons, ih, events, cancel, record_journal, List.map_append, List.append_assoc]
    rfl

/-- A handler that is unbound cancels its listeners as often as it lists them. -/
theorem count_cancel_unbindHandler {handler : Handler} (orderly : s.Orderly)
    (known : s.handlers[h]? = some handler) (only : (s.unbindHandler h).OnlyListens h id) :
    (s.unbindHandler h).events.count (.cancel id) =
      s.events.count (.cancel id) + handler.listeners.count id := by
  have injective : Function.Injective Event.cancel := fun _ _ same => Event.cancel.inj same
  have muted := leads_mutes carried_true.toChained (fun _ _ _ _ _ _ => trivial) known orderly
  simp only [unbindHandler, known] at only ⊢
  -- What the entries give up is no listener.
  have quits := leads_quits (h := h) (chained_spares h id)
    (fun e => closed_spares fun m is same => by cases is.symm.trans same)
    (List.range handler.entries.length) muted.1
  rw [quits.2.2.2 only, foldl_cancel_events, List.count_append,
    List.count_map_of_injective _ _ injective]

/-- So does a step with every handler that it unbinds. -/
theorem count_cancel_unbindHandlers {ids numbers : List Nat} (orderly : s.Orderly)
    (listed : s.listenerIds? h = some ids)
    (only : (numbers.foldl unbindHandler s).OnlyListens h id) :
    (numbers.foldl unbindHandler s).events.count (.cancel id) =
      s.events.count (.cancel id) + numbers.count h * ids.count id := by
  induction numbers generalizing s with
  | nil => simp
  | cons h' rest ih =>
    obtain ⟨orderly', later⟩ := orderly.unbindHandler h'
    have rests := leads_unbindHandlers carried_true.toChained rest
      (fun _ _ _ _ _ _ _ _ => trivial) orderly'
    have only' : (s.unbindHandler h').OnlyListens h id := only.of_later rests.2.1
    obtain ⟨handler, known, same⟩ := Option.map_eq_some_iff.mp listed
    have stays := leads_unbindHandler (chained_sameIds h) (h := h') (fun _ => closed_sameIds
      fun m unwires equips => by cases m <;> first | exact unwires.elim | exact equips.elim) orderly
    have listed' : (s.unbindHandler h').listenerIds? h = some ids :=
      (stays.2.2 (List.getElem?_eq_some_iff.mp known).1).trans listed
    rw [List.foldl_cons, ih orderly' listed' only, List.count_cons]
    by_cases own : h' = h
    · subst own
      rw [count_cancel_unbindHandler orderly known only', same, if_pos (by simp), Nat.add_mul]
      omega
    · have spares := leads_unbindHandler (chained_spares h id) (h := h') (fun _ => closed_spares
        fun m unwires is => by
          subst is
          exact own unwires.symm) orderly
      rw [spares.2.2.2 only', if_neg (by simpa using own)]
      rfl

/-- A listener is cancelled once in the step that unbinds its handler. -/
theorem count_cancel_step {ids : List Nat} {step : Step} (orderly : s.Orderly)
    (handsOut : s.HandsOut) (listed : s.listenerIds? h = some ids) (nodup : ids.Nodup)
    (mem : id ∈ ids) (unbinds : h ∈ s.named step)
    (only : (s.step step).2.OnlyListens h id) :
    (s.step step).2.events.count (.cancel id) = s.events.count (.cancel id) + 1 := by
  obtain ⟨first, last, eq⟩ := s.step_unbinds (unbinds_of_named unbinds)
  have orderly' := orderly.move (m := .rebind first) trivial
  rw [eq] at only ⊢
  have only' := only.of_later (extends_move _ (.rebind last))
  have count := count_cancel_unbindHandlers (s := s.move (.rebind first)) orderly' listed only'
  rw [List.count_eq_one_of_mem (handsOut.nodup_named step) unbinds,
    List.count_eq_one_of_mem nodup mem] at count
  exact count

/-! ### Plays -/

/-- A handler that is unbound is unbound in one step. -/
theorem exists_split_of_mem_unboundIn {steps : List Step} (mem : h ∈ s.unboundIn steps) :
    ∃ before step rest, steps = before ++ step :: rest ∧ h ∉ s.unboundIn before ∧
      h ∈ (s.after before).unbinds step := by
  induction steps generalizing s with
  | nil => cases mem
  | cons step rest ih =>
    by_cases now : h ∈ s.unbinds step
    · exact ⟨[], step, rest, rfl, List.not_mem_nil, now⟩
    · obtain ⟨before, step', rest', rfl, not_before, then_⟩ :=
        ih ((List.mem_append.mp mem).resolve_left now)
      exact ⟨step :: before, step', rest', rfl,
        fun mem => (List.mem_append.mp mem).elim now not_before, then_⟩

/-- Steps that do not unbind its handler cancel no listener. -/
theorem spares_after (orderly : s.Orderly) {steps : List Step} (keeps : h ∉ s.unboundIn steps) :
    Spares h id s (s.after steps) := by
  refine ((chained_spares h id).leads_after_within (h := h) (closed_spares fun m is same => ?_)
    orderly).2.2
  subst same
  exact keeps (is.2 rfl)

/-- In every play a listener is cancelled once if its handler is unbound, and else never. -/
theorem count_cancel_listener (setup : Setup) (steps : List Step) {l : Listener}
    (mem : l ∈ (setup.start.after steps).page.listeners) :
    (setup.start.after steps).events.count (.cancel l.id) =
      if l.callback.handler ∈ setup.start.unboundIn steps then 1 else 0 := by
  have only := (orderly_after setup steps).onlyListens mem
  split
  next unbound =>
    obtain ⟨before, step, rest, rfl, not_before, unbinds⟩ := exists_split_of_mem_unboundIn unbound
    have named := (List.mem_filter.mp unbinds).1
    have orderly := orderly_after setup before
    have handsOut := handsOut_after setup before
    have bound := handsOut.lt_of_named named
    obtain ⟨handler, known, own⟩ := listed_after setup _ l mem
    rw [after_append] at known only ⊢
    -- The list of the handler, in which the listener is at the end, was complete by then.
    have leads : (setup.start.after before).Leads (SameIds l.callback.handler)
        ((setup.start.after before).after (step :: rest)) :=
      (chained_sameIds _).leads_after_within (h := l.callback.handler)
        (closed_sameIds fun m is equips => Nat.not_le_of_lt bound (is.1 equips))
    have stays := (leads orderly).2.2 bound
    rw [listenerIds?, known] at stays
    obtain ⟨orderly', later⟩ := orderly.step step
    have spared : Spares l.callback.handler l.id _ _ := spares_after orderly'
      ((withheld_step handsOut orderly named).notMem_unboundIn orderly'
        (Nat.lt_of_lt_of_le bound later.length_handlers) rest)
    have only' := only.of_later spared.1
    rw [after_cons, spared.2 only, count_cancel_step orderly handsOut stays.symm
      (distinct_after setup before _ _ stays.symm) own named only',
      (spares_after (orderly_start setup) not_before).2 (only'.of_later later)]
    rfl
  next bound => exact (spares_after (orderly_start setup) bound).2 only

end TriggerSheet.Scene
