import TriggerSheet.Proofs.Scene.Bound
import TriggerSheet.Proofs.Scene.Handed

/-!
# The trace of a play

What the steps of a play do, one after the other: the clauses that they bind, each with the scene
that it is bound in, and the handlers that they tell to fire.

## Main definitions

* `Scene.along` — what the steps of a play contribute
* `ClauseBind` — a clause that is bound, with the scene before
* `Scene.bindsIn` — the clauses that some steps bind
* `Scene.toldIn` — the handlers that some steps tell to fire

## Main results

* `Scene.leads_of_mem_bindsIn` — what happens behind the binding of a clause
* `Scene.exists_bind_of_hasEntry` — the entries of handlers come from clauses that are bound
-/

namespace TriggerSheet

/-- A clause that is bound: the scene before, how far reactions nest, and where reports go. -/
structure ClauseBind where
  scene : Scene
  depth : Nat
  options : Options
  sink : Sink
  selector : String
  clause : Clause

namespace ClauseBind

variable (b : ClauseBind)

/-- How the clause is activated. -/
def activation : Activation := Activation.ofName b.clause.name

/-- The number of the handler that the clause gets, if it gets one. -/
def handler? : Option Nat :=
  (Scene.bindClause (Scene.reactWithin b.depth) b.options b.sink b.scene b.selector b.clause).1

/-- The scene in which the clause is bound. -/
def after : Scene :=
  (Scene.bindClause (Scene.reactWithin b.depth) b.options b.sink b.scene b.selector b.clause).2

/-- What the clause waits for has happened before: the window is loaded, or the content is ready. -/
def isPast : Bool :=
  match b.activation with
  | .window event => event = EventName.load && b.scene.page.loaded
  | .contentReady => b.scene.page.contentReady
  | _ => false

end ClauseBind

namespace Scene

/-- What the steps of a play contribute, each with the scene before it. -/
def along {α : Type} (each : Scene → Step → List α) (s : Scene) : List Step → List α
  | [] => []
  | step :: rest => each s step ++ along each (s.step step).2 rest

/-- The clauses that are bound one after the other. -/
def bindsOf (depth : Nat) (options : Options) (sink : Sink) (s : Scene) :
    List (String × Clause) → List ClauseBind
  | [] => []
  | (selector, clause) :: rest =>
    let b : ClauseBind := ⟨s, depth, options, sink, selector, clause⟩
    b :: bindsOf depth options sink b.after rest

/-- The clauses that a step binds. -/
def binds (s : Scene) : Step → List ClauseBind
  | .bind route source =>
    let read := s.read source
    bindsOf read.budget (s.route route).1 (s.route route).2 read source.clauses
  | _ => []

/-- The clauses that some steps bind. -/
def bindsIn (s : Scene) (steps : List Step) : List ClauseBind := s.along binds steps

/-- The handler that a step tells to fire. -/
def told (s : Scene) : Step → List Nat
  | .fire b place => (s.handedAt b place).toList
  | _ => []

/-- The handlers that some steps tell to fire, each as often as it is told. -/
def toldIn (s : Scene) (steps : List Step) : List Nat := s.along told steps

variable {Q : Scene → Scene → Prop} {s : Scene} {b : ClauseBind} {h : Nat}

/-! ### The clauses of a bind -/

section Clauses

variable {depth : Nat} {options : Options} {sink : Sink} {clauses : List (String × Clause)}

/-- Before the binding of a clause come the clauses before it. -/
theorem leads_before_bindsOf (chained : Chained Q) {n : Nat}
    (binds : ∀ h, n ≤ h → Closed Q (Move.Binds h))
    (fires : ∀ h cause, n ≤ h → Fires Q (reactWithin depth) h cause)
    (later : n ≤ s.handlers.length) (mem : b ∈ bindsOf depth options sink s clauses) :
    s.Leads Q b.scene := by
  induction clauses generalizing s with
  | nil => cases mem
  | cons first rest ih =>
    obtain ⟨selector, clause⟩ := first
    rcases List.mem_cons.mp mem with rfl | mem
    · exact chained.leads_refl s
    · exact chained.leads_then
        (leads_bindClause chained binds fires options sink selector clause later)
        fun extended => ih (Nat.le_trans later extended.length_handlers) mem

theorem orderly_of_mem_bindsOf (orderly : s.Orderly)
    (mem : b ∈ bindsOf depth options sink s clauses) : b.scene.Orderly ∧ s.Extends b.scene := by
  have leads := leads_before_bindsOf carried_true.toChained (n := 0)
    (fun _ _ _ _ _ _ _ => trivial)
    (fun h cause _ => carried_true.fires_reactWithin depth h cause) (Nat.zero_le _) mem orderly
  exact ⟨leads.1, leads.2.1⟩

/-- Behind the binding of a clause come the clauses after it. -/
theorem leads_of_mem_bindsOf (chained : Chained Q)
    (binds : ∀ h, b.after.handlers.length ≤ h → Closed Q (Move.Binds h))
    (fires : ∀ h cause, b.after.handlers.length ≤ h → Fires Q (reactWithin depth) h cause)
    (mem : b ∈ bindsOf depth options sink s clauses) :
    b.after.Leads Q (bindClauses (reactWithin depth) options sink s clauses).2 := by
  induction clauses generalizing s with
  | nil => cases mem
  | cons first rest ih =>
    obtain ⟨selector, clause⟩ := first
    rw [bindClauses_cons]
    rcases List.mem_cons.mp mem with rfl | later
    · exact leads_bindClauses chained binds fires options sink rest (Nat.le_refl _)
    · exact ih later

/-- An entry of a handler that was not there before comes from one of the clauses. -/
theorem exists_bind_of_bindClauses {a : Activation} {e : Nat} (orderly : s.Orderly)
    (new : s.handlers.length ≤ h)
    (has : (bindClauses (reactWithin depth) options sink s clauses).2.HasEntry a h e) :
    ∃ b ∈ bindsOf depth options sink s clauses,
      b.scene.handlers.length ≤ h ∧ b.after.HasEntry a h e := by
  induction clauses generalizing s with
  | nil => exact absurd has.lt (Nat.not_lt.mpr new)
  | cons first rest ih =>
    obtain ⟨selector, clause⟩ := first
    rw [bindClauses_cons] at has
    obtain ⟨orderly', -⟩ := orderly.bindClause depth options sink selector clause
    by_cases bound : h < (bindClause (reactWithin depth) options sink s selector
      clause).2.handlers.length
    · have rests := leads_bindClauses carried_true.toChained (n := 0)
        (fun _ _ _ _ _ _ _ => trivial)
        (fun h cause _ => carried_true.fires_reactWithin depth h cause) options sink rest
        (Nat.zero_le _) orderly'
      exact ⟨_, List.mem_cons_self .., new, rests.2.1.hasEntry_of_lt bound has⟩
    · obtain ⟨b, mem, later, made⟩ := ih orderly' (Nat.le_of_not_lt bound) has
      exact ⟨b, List.mem_cons_of_mem _ mem, later, made⟩

/-- The clauses of a bind are bound in order, all with the same options. -/
theorem map_clause_bindsOf (depth : Nat) (options : Options) (sink : Sink) (s : Scene)
    (clauses : List (String × Clause)) :
    (bindsOf depth options sink s clauses).map (fun b => (b.selector, b.clause, b.options)) =
      clauses.map fun clause => (clause.1, clause.2, options) := by
  induction clauses generalizing s with
  | nil => rfl
  | cons first rest ih => exact congrArg₂ List.cons rfl (ih _)

end Clauses

/-! ### The clauses of a step -/

theorem length_binds (s : Scene) (route : Route) (source : Source) :
    (s.binds (.bind route source)).length = source.clauses.length := by
  have lengths := congrArg List.length (map_clause_bindsOf (s.read source).budget
    (s.route route).1 (s.route route).2 (s.read source) source.clauses)
  rw [List.length_map, List.length_map] at lengths
  exact lengths

section Bind

variable {route : Route} {source : Source} (mem : b ∈ s.binds (.bind route source))

include mem

/-- Before the binding of a clause its source is read, and the clauses before it are bound. -/
theorem leads_before_bind (chained : Chained Q)
    (binds : ∀ h, s.handlers.length ≤ h → Closed Q (Move.Binds h))
    (fires : ∀ depth h cause, s.handlers.length ≤ h → Fires Q (reactWithin depth) h cause) :
    s.Leads Q b.scene := by
  have wires : Closed Q (Move.Wires s.handlers.length) :=
    (binds _ (Nat.le_refl _)).mono fun _ => .inl
  exact chained.leads_then (leads_read chained wires source) fun later =>
    leads_before_bindsOf chained binds (fires _) later.length_handlers mem

/-- Behind the binding of a clause the clauses after it are bound, and the handlers handed out. -/
theorem leads_behind_bind (chained : Chained Q)
    (binds : ∀ h, b.after.handlers.length ≤ h → Closed Q (Move.Binds h))
    (fires : ∀ depth h cause, b.after.handlers.length ≤ h → Fires Q (reactWithin depth) h cause)
    (rebinds : Closed Q Move.Rebinds) : b.after.Leads Q (s.bind route source).2 := by
  have wires : Closed Q (Move.Wires b.after.handlers.length) :=
    (binds _ (Nat.le_refl _)).mono fun _ => .inl
  obtain ⟨handlers, bindings, eq⟩ := s.bind_eq route source
  rw [eq]
  exact chained.leads_trans (leads_of_mem_bindsOf chained binds (fires _) mem)
    (chained.leads_trans (leads_log_none wires _ rfl)
      (rebinds.leads (m := .rebind bindings) trivial trivial))

end Bind

/-! ### The clauses of a play -/

variable {steps : List Step}

theorem orderly_of_mem_bindsIn (orderly : s.Orderly) (mem : b ∈ s.bindsIn steps) :
    b.scene.Orderly := by
  induction steps generalizing s with
  | nil => cases mem
  | cons step rest ih =>
    rcases List.mem_append.mp mem with now | later
    · cases step with
      | bind route source =>
        have reads := leads_read (s := s) (h := 0) carried_true.toChained
          (fun _ _ _ _ _ => trivial) source
        exact (orderly_of_mem_bindsOf (reads orderly).1 now).1
      | _ => cases now
    · exact ih (orderly.step step).1 later

/-- What happens behind the binding of a clause concerns its handler as a play concerns a handler
that is there. -/
theorem leads_of_mem_bindsIn (chained : Chained Q)
    (closed : Closed Q fun m => ¬m.Equips h ∧ (m.Unwires h → h ∈ s.unboundIn steps))
    (bound : h < b.after.handlers.length) (mem : b ∈ s.bindsIn steps) :
    b.after.Leads Q (s.after steps) := by
  induction steps generalizing s with
  | nil => cases mem
  | cons step rest ih =>
    have closed' : Closed Q fun m => ¬m.Equips h ∧
        (m.Unwires h → h ∈ (s.step step).2.unboundIn rest) :=
      closed.mono fun m is => ⟨is.1, fun unwires => List.mem_append_right _ (is.2 unwires)⟩
    rcases List.mem_append.mp mem with now | later
    swap
    · exact ih closed' later
    cases step with
    | bind route source =>
      have carried := chained.carried (closed.mono fun m runs =>
        ⟨runs.not_equips, fun unwires => absurd unwires runs.not_unwires⟩)
      have binds (h' : Nat) (later : b.after.handlers.length ≤ h') : Closed Q (Move.Binds h') :=
        closed.mono fun m binds => ⟨fun equips => by
          have same := binds.eq_of_equips equips
          omega, fun unwires => absurd unwires binds.not_unwires⟩
      have rebinds : Closed Q Move.Rebinds := closed.mono fun m rebinds => by
        cases m <;> first | exact rebinds.elim | exact ⟨id, False.elim⟩
      -- First comes the rest of the bind, and then the rest of the play.
      refine chained.leads_then (leads_behind_bind now chained binds
        (fun depth h' cause _ => carried.fires_reactWithin depth h' cause) rebinds) fun later =>
          chained.leads_after_within (h := h) (closed'.mono fun m is => ⟨fun equips => ?_, is.2⟩)
      exact absurd (is.1 equips) (Nat.not_le_of_lt (Nat.lt_of_lt_of_le bound later.length_handlers))
    | _ => cases now

/-- An entry of a handler that was not there before comes from a clause that was bound. -/
theorem exists_bind_of_hasEntry {a : Activation} {e : Nat} (orderly : s.Orderly)
    (new : s.handlers.length ≤ h) (has : (s.after steps).HasEntry a h e) :
    ∃ b ∈ s.bindsIn steps, b.scene.handlers.length ≤ h ∧ b.after.HasEntry a h e := by
  induction steps generalizing s with
  | nil => exact absurd has.lt (Nat.not_lt.mpr new)
  | cons step rest ih =>
    have orderly' := (orderly.step step).1
    by_cases bound : h < (s.step step).2.handlers.length
    swap
    · obtain ⟨b, mem, later, made⟩ := ih orderly' (Nat.le_of_not_lt bound) has
      exact ⟨b, List.mem_append_right _ mem, later, made⟩
    have has' := (orderly'.after rest).2.hasEntry_of_lt bound has
    by_cases binds : ∃ route source, step = .bind route source
    · obtain ⟨route, source, rfl⟩ := binds
      obtain ⟨journal, read⟩ := s.read_eq source
      have length : (s.read source).handlers.length = s.handlers.length := by rw [read]
      have reads := leads_read (s := s) (h := 0) carried_true.toChained
        (fun _ _ _ _ _ => trivial) source
      have added : (s.bound route source).HasEntry a h e := has'
      obtain ⟨b, mem, made⟩ :=
        exists_bind_of_bindClauses (reads orderly).1 (length ▸ new) added
      exact ⟨b, List.mem_append_left _ mem, made⟩
    · -- No other step adds handlers.
      have steady := leads_steady_step (s := s) step
        fun route source is => binds ⟨route, source, is⟩
      exact absurd ((steady orderly).2.2.hasEntry has').lt (Nat.not_lt.mpr new)

end Scene

end TriggerSheet
