import TriggerSheet.Proofs.Scene.Registration
import TriggerSheet.Scene.Binding

/-!
# Operations on a scene

What the small operations of a scene change, field by field. An operation on one entry of a handler
changes what that entry keeps and nothing else of the handlers.

## Main definitions

* `Handler.unfired` — a handler as it was bound
* `Scene.HasEntry` — a handler of an activation has an entry
* `Scene.held?` — the registration that an entry holds
* `Scene.opened` — the scene in which a firing has asked its query

## Main results

* `Scene.entryAt?_modifyEntry` — changing an entry leaves the others alone
* `Scene.clear_of_held?_eq_some`, `Scene.clear_of_held?_eq_none` — clearing an entry
* `Scene.setOff_eq` — a firing runs its actions on what its one query found
-/

namespace TriggerSheet

/-- A handler as it was bound: it has not fired, listened or held anything. -/
def Handler.unfired (handler : Handler) : Handler :=
  { handler with fired := 0, listeners := [], entries := handler.entries.map fun _ => .fresh }

/-- Handlers that were bound alike have equally many entries. -/
theorem Handler.length_of_unfired {a b : Handler} (same : a.unfired = b.unfired) :
    a.entries.length = b.entries.length := by
  have lengths := congrArg (fun handler => handler.entries.length) same
  simpa only [Handler.unfired, List.length_map] using lengths

theorem map_modify_eq {α β : Type} (g : α → β) (f : α → α) (same : ∀ a, g (f a) = g a)
    (l : List α) (i : Nat) : (l.modify i f).map g = l.map g := by
  apply List.ext_getElem?
  intro j
  by_cases hit : i = j
  · simp [hit, Function.comp_def, same]
  · simp [hit]

namespace Scene

variable (s : Scene)

/-- The handler with a number has an activation and an entry at a place. -/
def HasEntry (activation : Activation) (h e : Nat) : Prop :=
  ∃ handler, s.handlers[h]? = some handler ∧ handler.activation = activation ∧
    e < handler.entries.length

instance (activation : Activation) (h e : Nat) : Decidable (s.HasEntry activation h e) :=
  decidable_of_iff (∃ handler ∈ s.handlers[h]?, handler.activation = activation ∧
    e < handler.entries.length) Iff.rfl

/-- The registration that an entry holds. -/
def held? (h e : Nat) : Option Nat := (s.entryAt? h e).bind (·.held)

/-! ### Journal -/

section Record

variable (firing : Option Nat) (event : Event)

@[simp]
theorem record_setup : (s.record firing event).setup = s.setup := rfl

@[simp]
theorem record_page : (s.record firing event).page = s.page := rfl

@[simp]
theorem record_handlers : (s.record firing event).handlers = s.handlers := rfl

@[simp]
theorem record_firings : (s.record firing event).firings = s.firings := rfl

theorem record_journal : (s.record firing event).journal =
    s.journal ++ [⟨firing, event, s.handlers.map (·.fired)⟩] := rfl

@[simp]
theorem record_entryAt? (h e : Nat) : (s.record firing event).entryAt? h e = s.entryAt? h e := rfl

theorem record_isRevealed (h e : Nat) :
    (s.record firing event).isRevealed h e = s.isRevealed h e := rfl

end Record

/-- Where a sink sends a diagnostic. -/
theorem report_eq (firing : Option Nat) (sink : Sink) (d : Diagnostic) :
    s.report firing sink d =
      s.record firing
        (match sink with | .journal => .diagnostic d | .log => .logged (.diagnosed d)) := by
  cases sink <;> rfl

/-! ### Handlers -/

theorem unfired_modifyHandler (h : Nat) (f : Handler → Handler)
    (same : ∀ handler, (f handler).unfired = handler.unfired) :
    (s.modifyHandler h f).handlers.map Handler.unfired = s.handlers.map Handler.unfired :=
  map_modify_eq _ _ same _ _

theorem entryAt?_modifyHandler (h : Nat) (f : Handler → Handler)
    (same : ∀ handler, (f handler).entries = handler.entries) (h' e : Nat) :
    (s.modifyHandler h f).entryAt? h' e = s.entryAt? h' e := by
  by_cases hit : h = h'
  · cases known : s.handlers[h']? <;> simp [entryAt?, modifyHandler, hit, known, same]
  · simp [entryAt?, modifyHandler, hit]

/-! ### Entries -/

section Entry

variable (h e : Nat)

theorem entryAt?_modifyEntry (f : Entry → Entry) (h' e' : Nat) :
    (s.modifyEntry h e f).entryAt? h' e' =
      if h' = h ∧ e' = e then (s.entryAt? h e).map f else s.entryAt? h' e' := by
  by_cases handler : h' = h
  · subst handler
    cases known : s.handlers[h']? with
    | none => simp [entryAt?, modifyEntry, modifyHandler, known]
    | some handler =>
      by_cases entry : e' = e
      · simp [entryAt?, modifyEntry, modifyHandler, known, entry]
      · simp [entryAt?, modifyEntry, modifyHandler, known, entry, Ne.symm entry]
  · simp [entryAt?, modifyEntry, modifyHandler, handler, Ne.symm handler]

theorem unfired_modifyEntry (f : Entry → Entry) :
    (s.modifyEntry h e f).handlers.map Handler.unfired = s.handlers.map Handler.unfired := by
  refine map_modify_eq _ _ (fun handler => ?_) _ _
  simp [Handler.unfired, map_modify_eq (fun _ : Entry => Entry.fresh) f fun _ => rfl]

theorem fired_modifyEntry (f : Entry → Entry) :
    (s.modifyEntry h e f).handlers.map (·.fired) = s.handlers.map (·.fired) := by
  refine map_modify_eq Handler.fired _ (fun handler => ?_) _ _
  rfl

theorem listeners_modifyEntry (f : Entry → Entry) :
    (s.modifyEntry h e f).handlers.map (·.listeners) = s.handlers.map (·.listeners) := by
  refine map_modify_eq Handler.listeners _ (fun handler => ?_) _ _
  rfl

theorem held?_hold (id : Option Nat) (h' e' : Nat) :
    (s.hold h e id).held? h' e' =
      if h' = h ∧ e' = e then (s.entryAt? h e).bind fun _ => id else s.held? h' e' := by
  rw [held?, hold, entryAt?_modifyEntry]
  split
  · cases s.entryAt? h e <;> rfl
  · rfl

theorem isRevealed_hold (id : Option Nat) (h' e' : Nat) :
    (s.hold h e id).isRevealed h' e' = s.isRevealed h' e' := by
  rw [isRevealed, hold, entryAt?_modifyEntry]
  split
  next hit => obtain ⟨rfl, rfl⟩ := hit; simp [isRevealed, Function.comp_def]
  next => rfl

variable {s h e}

theorem clear_of_held?_eq_some {id : Nat} (held : s.held? h e = some id) :
    s.clear h e = (s.hold h e none).cancel id := by
  rw [held?] at held
  simp only [clear, held]

theorem clear_of_held?_eq_none (held : s.held? h e = none) : s.clear h e = s := by
  rw [held?] at held
  simp only [clear, held]

end Entry

/-! ### Firing -/

/-- The scene in which a firing has begun and asked what its selector matches. -/
def opened (h : Nat) (cause : Cause) : Scene :=
  match s.handlers[h]? with
  | none => s
  | some handler =>
    (s.beginFiring h cause).record (some s.firings.length)
      (.query handler.selector (s.page.matching handler.selector))

variable {s}

theorem opened_eq {h : Nat} {handler : Handler} (known : s.handlers[h]? = some handler)
    (cause : Cause) :
    s.opened h cause = (s.beginFiring h cause).record (some s.firings.length)
      (.query handler.selector (s.page.matching handler.selector)) := by
  simp only [opened, known]

/-- A firing runs its actions on what its one query found. -/
theorem setOff_eq (react : Reaction) {h : Nat} {handler : Handler}
    (known : s.handlers[h]? = some handler) (cause : Cause) :
    s.setOff react h cause = (s.opened h cause).runFiring react h handler s.firings.length
      (s.page.matching handler.selector) := by
  simp only [setOff, opened, known]
  rfl

end Scene

end TriggerSheet
