import TriggerSheet.Proofs.Scene.Hold

/-!
# The handlers of a bind

A bind gives the numbers of its handlers in the order of the clauses of its sheet. A clause may be
left out, but every handler carries the selector, the trigger and the actions of its clause, and
does so for the rest of the play.

## Main definitions

* `Source.clauses` — the clauses of a source, each with the selector of its block
* `Scene.clauseAt?` — the clause that a handler carries
* `Scene.numbersOf` — the numbers that a bind gives

## Main results

* `Scene.clauses_bindClauses` — the handlers of some clauses carry a part of them, in order
* `Scene.clauses_bind` — if none is left out, the handlers of a bind carry the clauses of its sheet
-/

namespace TriggerSheet

/-- The clauses of a source in order, each with the selector of its block. -/
def Source.clauses (source : Source) : List (String × Clause) :=
  source.sheet.flatMap fun b => b.clauses.map fun c => (b.selector, c)

/-- The clause that a handler was bound for, with its selector. -/
def Handler.clause (handler : Handler) : String × Clause :=
  (handler.selector, ⟨handler.trigger, handler.actions⟩)

theorem Handler.clause_of_unfired {a b : Handler} (same : a.unfired = b.unfired) :
    a.clause = b.clause := by
  have unfired := congrArg Handler.clause same
  exact unfired

namespace Scene

variable {s t : Scene} {h : Nat}

/-- The clause that a handler carries. -/
def clauseAt? (s : Scene) (h : Nat) : Option (String × Clause) :=
  s.handlers[h]?.map Handler.clause

/-- The numbers of the handlers that a bind gives. -/
def numbersOf (s : Scene) (route : Route) (source : Source) : List Nat :=
  ((s.read source).bindBlocks (s.route route).1 (s.route route).2 source.sheet).1

theorem Extends.clauseAt? (later : s.Extends t) {clause : String × Clause}
    (carries : s.clauseAt? h = some clause) : t.clauseAt? h = some clause := by
  obtain ⟨handler, known, rfl⟩ := Option.map_eq_some_iff.mp carries
  obtain ⟨handler', known', same⟩ := later.handler known
  rw [Scene.clauseAt?, known', Option.map_some, Handler.clause_of_unfired same]

section Binding

variable (depth : Nat) (options : Options) (sink : Sink)

theorem clauseAt?_addHandler (orderly : s.Orderly) (selector : String) (clause : Clause)
    (activation : Activation) (targets : List Target) :
    (addHandler (reactWithin depth) options sink s selector clause activation targets).2.clauseAt?
      s.handlers.length = some (selector, clause) := by
  obtain ⟨handler, known, unfired⟩ :=
    exists_addHandler orderly depth options sink selector clause activation targets
  have carries := congrArg Handler.clause unfired
  rw [clauseAt?, known, Option.map_some]
  exact congrArg some carries

/-- If a clause gets a handler, the handler carries it. -/
theorem clauseAt?_bindClause (orderly : s.Orderly) (selector : String) (clause : Clause)
    (is : (bindClause (reactWithin depth) options sink s selector clause).1 = some h) :
    (bindClause (reactWithin depth) options sink s selector clause).2.clauseAt? h =
      some (selector, clause) := by
  have queried := orderly.move (m := .record none (.query selector (s.page.matching selector)))
    (allows_note _ trivial id)
  unfold bindClause at is ⊢
  dsimp only at is ⊢
  split at is
  next needs =>
    rw [if_pos needs]
    split at is
    · cases is
    next some =>
      rw [if_neg some]
      obtain rfl := Option.some.inj is
      exact clauseAt?_addHandler depth options sink queried selector clause _ _
  next free =>
    rw [if_neg free]
    obtain rfl := Option.some.inj is
    exact clauseAt?_addHandler depth options sink orderly selector clause _ _

/-- The handlers of some clauses carry a part of them, in order. -/
theorem clauses_bindClauses (orderly : s.Orderly) (clauses : List (String × Clause)) :
    ∃ kept : List (String × Clause), kept.Sublist clauses ∧
      (bindClauses (reactWithin depth) options sink s clauses).1.map
        (bindClauses (reactWithin depth) options sink s clauses).2.clauseAt? = kept.map some := by
  induction clauses generalizing s with
  | nil => exact ⟨[], .slnil, rfl⟩
  | cons first rest ih =>
    obtain ⟨selector, clause⟩ := first
    obtain ⟨orderly', -⟩ := orderly.bindClause depth options sink selector clause
    obtain ⟨kept, sub, carried⟩ := ih orderly'
    have leads := leads_bindClauses carried_true.toChained (n := 0) (fun _ _ _ _ _ _ _ => trivial)
      (fun h cause _ => carried_true.fires_reactWithin depth h cause) options sink rest
      (Nat.zero_le _) orderly'
    have own {h : Nat} := clauseAt?_bindClause (h := h) depth options sink orderly selector clause
    simp only [bindClauses]
    cases is : (bindClause (reactWithin depth) options sink s selector clause).1 with
    | none => exact ⟨kept, sub.cons _, carried⟩
    | some h =>
      -- What the first handler carries, it carries when the others are bound too.
      refine ⟨(selector, clause) :: kept, sub.cons_cons _, ?_⟩
      exact congrArg₂ (· :: ·) (leads.2.1.clauseAt? (own is)) carried

end Binding

/-- If no clause is left out, the handlers of a bind carry the clauses of its sheet, in order. -/
theorem clauses_bind (orderly : s.Orderly) (route : Route) (source : Source)
    (later : (s.bind route source).2.Extends t)
    (each : (s.numbersOf route source).length = source.clauses.length) :
    (s.numbersOf route source).map t.clauseAt? = source.clauses.map some := by
  have reads := leads_read (s := s) carried_true.toChained (h := 0) (fun _ _ _ _ _ => trivial)
    source
  obtain ⟨orderly', -, -⟩ := reads orderly
  obtain ⟨kept, sub, carried⟩ := clauses_bindClauses (s.read source).budget (s.route route).1
    (s.route route).2 orderly' source.clauses
  -- As many handlers as clauses carry all of them.
  have lengths : (s.numbersOf route source).length = kept.length := by
    have lengths := congrArg List.length carried
    rwa [List.length_map, List.length_map] at lengths
  obtain rfl := sub.eq_of_length (lengths.symm.trans each)
  rw [← carried]
  refine List.map_congr_left fun h mem => ?_
  obtain ⟨clause, -, is⟩ := List.mem_map.mp (carried ▸ List.mem_map_of_mem mem)
  rw [← is]
  exact later.clauseAt? is.symm

end Scene

end TriggerSheet
