import Mathlib.Data.List.Induction
import TriggerSheet.Proofs.Scene.Hold

/-!
# Handlers that are handed out

The handlers of a bind are handed out with it, each at one place. A handler that is unbound is
taken back, and nothing hands it out again, so it cannot be told to fire any more.

## Main definitions

* `Scene.handedAt` — the handler at a place of a binding
* `Scene.rebound` — what a step makes of the bindings that there are
* `Scene.HandsOut` — handlers that are handed out are there, each at one place

## Main results

* `Scene.step_bindings` — no step but a bind hands anything out
* `Scene.handsOut_after` — between steps every handler is handed out at one place at most
* `Scene.Withheld.step`, `Scene.withheld_step` — what is taken back is never handed out again
-/

namespace TriggerSheet.Scene

variable {s t : Scene} {h b place : Nat}

/-- The handler that is handed out at a place of a binding. -/
def handedAt (s : Scene) (b place : Nat) : Option Nat := s.bindings[b]?.bind (numberAt? · place)

theorem numberAt?_whole (numbers : List Nat) (place : Nat) :
    numberAt? (.whole numbers) place = numbers[place]? := by
  cases known : numbers[place]? <;> simp [numberAt?, Binding.places, known]

/-- A binding of which a place is emptied. -/
def emptied (place : Nat) : Binding → Binding
  | .released => .released
  | binding => .parts (binding.places.set place none)

theorem numberAt?_emptied (binding : Binding) (place place' : Nat) :
    numberAt? (emptied place binding) place' =
      if place' = place then none else numberAt? binding place' := by
  have set (handlers : List (Option Nat)) : (handlers.set place none)[place']?.join =
      if place' = place then none else handlers[place']?.join := by
    split
    next same =>
      subst same
      rw [List.getElem?_set_self']
      cases handlers[place']? <;> rfl
    next other => rw [List.getElem?_set_ne (Ne.symm other)]
  cases binding with
  | released => simp [emptied, numberAt?, Binding.places]
  | whole | parts => exact set _

/-! ### What leaves the bindings alone -/

/-- What is handed out does not differ. -/
def SameBindings (s t : Scene) : Prop := t.bindings = s.bindings

theorem chained_sameBindings : Chained SameBindings :=
  ⟨fun _ => rfl, fun _ first second => second.trans first⟩

theorem move_bindings (s : Scene) {m : Move} (other : ¬m.Rebinds) :
    (s.move m).bindings = s.bindings := by
  have cleared (s : Scene) (h e : Nat) : (s.clear h e).bindings = s.bindings := by
    unfold clear
    split <;> rfl
  cases m with
  | rebind bindings => exact absurd trivial other
  | clear h e | quit h e => exact cleared s h e
  | fire h cause =>
    have opened (s : Scene) : (s.opened h cause).bindings = s.bindings := by
      unfold opened
      split <;> rfl
    rw [move, opened]
    cases cause with
    | revealed e => exact cleared _ h e
    | event | held e | alreadyPast | manual => rfl
  | _ => rfl

theorem closed_sameBindings {kind : Move → Prop} (others : ∀ m, kind m → ¬m.Rebinds) :
    Closed SameBindings kind :=
  fun m is s _ _ => s.move_bindings (others m is)

/-- Callbacks hand nothing out. -/
theorem carried_sameBindings : Carried SameBindings := by
  refine chained_sameBindings.carried (closed_sameBindings fun m runs rebinds => ?_)
  have plays := runs.plays
  cases m <;> first | exact rebinds.elim | exact plays.elim

theorem closed_sameBindings_binds (h : Nat) : Closed SameBindings (Move.Binds h) :=
  closed_sameBindings fun m binds rebinds => by
    cases m with
    | rebind => rcases binds with wires | ⟨_, is⟩ <;> first | exact wires.elim | cases is
    | _ => exact rebinds.elim

theorem closed_sameBindings_unwires (h : Nat) : Closed SameBindings (Move.Unwires h) :=
  closed_sameBindings fun m unwires rebinds => by
    cases m <;> first | exact unwires.elim | exact rebinds.elim

/-! ### Steps -/

/-- What a step makes of the bindings that there are. -/
def rebound (s : Scene) : Step → List Binding
  | .unbind b | .drop b => s.bindings.modify b fun _ => .released
  | .unbindHandler b place => s.bindings.modify b (emptied place)
  | _ => s.bindings

theorem takeOut_bindings (orderly : s.Orderly) {binding : Binding}
    (known : s.bindings[b]? = some binding) (place : Nat) :
    (s.takeOut b binding place).2.bindings = s.bindings.modify b (emptied place) := by
  have modified : s.bindings.modify b (emptied place) =
      s.bindings.set b (emptied place binding) := by
    simp [List.modify_eq_set_getElem?, known]
  rw [modified]
  unfold takeOut
  split
  · obtain ⟨lt, is⟩ := List.getElem?_eq_some_iff.mp known
    exact (is ▸ List.set_getElem_self lt).symm
  next held =>
    have parts : emptied place binding = .parts (binding.places.set place none) := by
      cases binding <;> first | rfl | exact absurd rfl held
    rw [parts]
    split
    next h found =>
      obtain ⟨-, -, same⟩ := leads_unbindHandler chained_sameBindings (h := h)
        (fun _ => closed_sameBindings_unwires h)
        (orderly.move (m := .rebind (s.bindings.set b (.parts (binding.places.set place none))))
          trivial)
      exact same
    next => rfl

/-- No step but a bind hands anything out. -/
theorem step_bindings (orderly : s.Orderly) (step : Step)
    (other : ∀ route source, step ≠ .bind route source) :
    (s.step step).2.bindings = s.rebound step := by
  have unknown {b : Nat} (none : s.bindings[b]? = none) (f : Binding → Binding) :
      s.bindings.modify b f = s.bindings :=
    List.modify_eq_self (List.getElem?_eq_none_iff.mp none)
  cases step with
  | page p =>
    exact (carried_sameBindings.perform (carried_sameBindings.admits_react s) s p orderly).2.2
  | bind route source => exact absurd rfl (other route source)
  | fire b place =>
    simp only [step, withBinding]
    split
    · split
      next h found =>
        by_cases bound : h < s.handlers.length
        · exact (carried_sameBindings.fires_reactWithin s.budget h .manual s bound orderly).2.2
        · simp only [fireByHand, setOff, List.getElem?_eq_none (Nat.le_of_not_lt bound)]
          rfl
      next => rfl
    · rfl
  | unbind b =>
    simp only [step, withBinding, rebound]
    split
    next binding known =>
      obtain ⟨-, -, same⟩ := leads_unbindHandlers chained_sameBindings
        (binding.places.filterMap id) (fun h _ _ => closed_sameBindings_unwires h) orderly
      simp only [unbindAll, setBinding]
      rw [same, List.modify_eq_set_getElem?, known]
      rfl
    next none => exact (unknown none _).symm
  | unbindHandler b place =>
    simp only [step, withBinding, rebound]
    split
    next binding known => exact takeOut_bindings orderly known place
    next none => exact (unknown none _).symm
  | drop b =>
    simp only [step, withBinding, rebound]
    split
    next binding known =>
      simp only [setBinding]
      rw [List.modify_eq_set_getElem?, known]
      rfl
    next none => exact (unknown none _).symm
  | find | describeAll =>
    simp only [step, withBinding]
    split
    · split <;> rfl
    · rfl
  | handler | describe | unknown =>
    simp only [step, withBinding]
    split <;> rfl
  | malformed b field =>
    cases b with
    | none => rfl
    | some b =>
      simp only [step, withBinding]
      split <;> rfl
  | describeEngine | engine => rfl

/-- A step hands out only what was handed out there before. -/
theorem handedAt_rebound (s : Scene) (step : Step)
    (is : (s.rebound step)[b]?.bind (numberAt? · place) = some h) :
    s.handedAt b place = some h := by
  have modified {b' : Nat} {f : Binding → Binding}
      (fewer : ∀ binding, numberAt? (f binding) place = some h →
        numberAt? binding place = some h)
      (is : (s.bindings.modify b' f)[b]?.bind (numberAt? · place) = some h) :
      s.handedAt b place = some h := by
    rw [List.getElem?_modify] at is
    obtain ⟨binding, known, found⟩ := Option.bind_eq_some_iff.mp is
    obtain ⟨before, there, rfl⟩ := Option.map_eq_some_iff.mp known
    rw [handedAt, there, Option.bind_some]
    split at found
    · exact fewer before found
    · exact found
  have gone (binding : Binding) (found : numberAt? .released place = some h) :
      numberAt? binding place = some h := by cases found
  cases step with
  | unbind | drop => exact modified gone is
  | unbindHandler b' place' =>
    refine modified (fun binding found => ?_) is
    rw [numberAt?_emptied] at found
    split at found
    · cases found
    · exact found
  | _ => exact is

/-! ### Binding -/

section Binding

variable (depth : Nat) (options : Options) (sink : Sink)

/-- The handler of a clause is the next one. -/
theorem number_bindClause (orderly : s.Orderly) (selector : String) (clause : Clause)
    (is : (bindClause (reactWithin depth) options sink s selector clause).1 = some h) :
    h = s.handlers.length ∧
      h < (bindClause (reactWithin depth) options sink s selector clause).2.handlers.length := by
  have added (s : Scene) (orderly : s.Orderly) (activation : Activation) (targets : List Target) :
      s.handlers.length < (addHandler (reactWithin depth) options sink s selector clause activation
        targets).2.handlers.length := by
    obtain ⟨handler, known, -⟩ :=
      exists_addHandler orderly depth options sink selector clause activation targets
    exact (List.getElem?_eq_some_iff.mp known).1
  have queried := orderly.move (m := .record none (.query selector (s.page.matching selector)))
    (allows_note _ trivial id)
  unfold bindClause at is ⊢
  dsimp only at is ⊢
  split at is
  next needs =>
    rw [if_pos needs]
    split at is
    · cases is
    next some =>
      rw [if_neg some]
      obtain rfl := Option.some.inj is
      exact ⟨rfl, added _ queried _ _⟩
  next free =>
    rw [if_neg free]
    obtain rfl := Option.some.inj is
    exact ⟨rfl, added s orderly _ _⟩

/-- The handlers of a bind are new, in the order of their clauses. -/
theorem numbers_bindClauses (orderly : s.Orderly) (clauses : List (String × Clause)) :
    (bindClauses (reactWithin depth) options sink s clauses).1.Pairwise (· < ·) ∧
      ∀ h ∈ (bindClauses (reactWithin depth) options sink s clauses).1, s.handlers.length ≤ h ∧
        h < (bindClauses (reactWithin depth) options sink s clauses).2.handlers.length := by
  induction clauses generalizing s with
  | nil => exact ⟨.nil, fun h mem => absurd mem List.not_mem_nil⟩
  | cons first rest ih =>
    obtain ⟨selector, clause⟩ := first
    obtain ⟨orderly', later⟩ := orderly.bindClause depth options sink selector clause
    obtain ⟨ascending, new⟩ := ih orderly'
    have number {h : Nat} := number_bindClause (h := h) depth options sink orderly selector clause
    have leads := leads_bindClauses carried_true.toChained (n := 0) (fun _ _ _ _ _ _ _ => trivial)
      (fun h cause _ => carried_true.fires_reactWithin depth h cause) options sink rest
      (Nat.zero_le _) orderly'
    have later' := leads.2.1.length_handlers
    simp only [bindClauses]
    refine ⟨List.pairwise_append.mpr ⟨?_, ascending, fun h mem h' mem' => ?_⟩, fun h mem => ?_⟩
    · cases (bindClause (reactWithin depth) options sink s selector clause).1 <;> simp
    · -- What the first clause adds comes before what the others add.
      have := (number (Option.mem_toList.mp mem)).2
      have := (new h' mem').1
      omega
    · rcases List.mem_append.mp mem with own | mem
      · obtain ⟨rfl, lt⟩ := number (Option.mem_toList.mp own)
        exact ⟨Nat.le_refl _, Nat.lt_of_lt_of_le lt later'⟩
      · obtain ⟨le, lt⟩ := new h mem
        exact ⟨Nat.le_trans later.length_handlers le, lt⟩

end Binding

/-- A bind hands out its new handlers, each at one place behind all others. -/
theorem bind_bindings (orderly : s.Orderly) (route : Route) (source : Source) :
    ∃ numbers : List Nat, (s.bind route source).2.bindings = s.bindings ++ [.whole numbers] ∧
      numbers.Nodup ∧
      ∀ h ∈ numbers, s.handlers.length ≤ h ∧ h < (s.bind route source).2.handlers.length := by
  obtain ⟨journal, read⟩ := s.read_eq source
  have reads := leads_read (s := s) chained_sameBindings
    ((closed_sameBindings_binds 0).mono fun _ => .inl) source
  obtain ⟨orderly', -, same⟩ := reads orderly
  have clauses := leads_bindClauses (s := s.read source) chained_sameBindings (n := 0)
    (fun h _ => closed_sameBindings_binds h)
    (fun h cause _ => carried_sameBindings.fires_reactWithin (s.read source).budget h cause)
    (s.route route).1 (s.route route).2
    (source.sheet.flatMap fun b => b.clauses.map fun c => (b.selector, c)) (Nat.zero_le _)
  obtain ⟨-, -, same'⟩ := clauses orderly'
  have bindings : (s.bound route source).bindings = s.bindings := same'.trans same
  obtain ⟨ascending, new⟩ := numbers_bindClauses (s.read source).budget (s.route route).1
    (s.route route).2 orderly'
    (source.sheet.flatMap fun b => b.clauses.map fun c => (b.selector, c))
  refine ⟨_, congrArg (· ++ [_]) bindings, ascending.imp Nat.ne_of_lt, fun h mem => ?_⟩
  have length : (s.read source).handlers.length = s.handlers.length := by rw [read]
  exact length ▸ new h mem

theorem handedAt_append {numbers : List Nat} (all : t.bindings = s.bindings ++ [.whole numbers])
    (is : t.handedAt b place = some h) :
    s.handedAt b place = some h ∨ b = s.bindings.length ∧ numbers[place]? = some h := by
  rw [handedAt, all] at is
  by_cases old : b < s.bindings.length
  · rw [List.getElem?_append_left old] at is
    exact .inl is
  · rw [List.getElem?_append_right (Nat.le_of_not_lt old)] at is
    obtain ⟨binding, known, found⟩ := Option.bind_eq_some_iff.mp is
    obtain ⟨lt, rfl⟩ := List.getElem?_eq_some_iff.mp known
    rw [List.length_singleton] at lt
    rw [List.getElem_singleton, numberAt?_whole] at found
    exact .inr ⟨by omega, found⟩

/-- What a step hands out was handed out at the same place, or is new. -/
theorem handedAt_step (orderly : s.Orderly) (step : Step)
    (is : (s.step step).2.handedAt b place = some h) :
    s.handedAt b place = some h ∨
      s.handlers.length ≤ h ∧ h < (s.step step).2.handlers.length := by
  by_cases binds : ∃ route source, step = .bind route source
  · obtain ⟨route, source, rfl⟩ := binds
    obtain ⟨numbers, all, -, new⟩ := bind_bindings orderly route source
    exact (handedAt_append all is).imp_right fun own => new h (List.mem_of_getElem? own.2)
  · rw [handedAt, step_bindings orderly step fun route source same => binds ⟨route, source, same⟩]
      at is
    exact .inl (s.handedAt_rebound step is)

/-! ### Plays -/

/-- Every handler that is handed out is there, and it is handed out at one place. -/
structure HandsOut (s : Scene) : Prop where
  there : ∀ {b place h}, s.handedAt b place = some h → h < s.handlers.length
  once : ∀ {b place b' place' h}, s.handedAt b place = some h → s.handedAt b' place' = some h →
    b = b' ∧ place = place'

theorem HandsOut.step (handsOut : s.HandsOut) (orderly : s.Orderly) (step : Step) :
    (s.step step).2.HandsOut where
  there is := by
    obtain ⟨-, later⟩ := orderly.step step
    rcases handedAt_step orderly step is with old | ⟨-, new⟩
    · exact Nat.lt_of_lt_of_le (handsOut.there old) later.length_handlers
    · exact new
  once is is' := by
    by_cases binds : ∃ route source, step = .bind route source
    · obtain ⟨route, source, rfl⟩ := binds
      obtain ⟨numbers, all, unique, new⟩ := bind_bindings orderly route source
      -- What was there before and what is new do not meet.
      have apart {b place h : Nat} (old : s.handedAt b place = some h) : h ∉ numbers :=
        fun mem => Nat.not_le_of_lt (handsOut.there old) (new _ mem).1
      rcases handedAt_append all is with old | ⟨rfl, own⟩
      · rcases handedAt_append all is' with old' | ⟨rfl, own'⟩
        · exact handsOut.once old old'
        · exact absurd (List.mem_of_getElem? own') (apart old)
      · rcases handedAt_append all is' with old' | ⟨rfl, own'⟩
        · exact absurd (List.mem_of_getElem? own) (apart old')
        · obtain ⟨lt, -⟩ := List.getElem?_eq_some_iff.mp own
          exact ⟨rfl, (List.getElem?_inj lt unique).mp (own.trans own'.symm)⟩
    · have bindings := step_bindings orderly step
        fun route source same => binds ⟨route, source, same⟩
      rw [handedAt, bindings] at is is'
      exact handsOut.once (s.handedAt_rebound step is) (s.handedAt_rebound step is')

/-- Between steps every handler is handed out at one place at most. -/
theorem handsOut_after (setup : Setup) (steps : List Step) :
    (setup.start.after steps).HandsOut := by
  induction steps using List.reverseRecOn with
  | nil => exact ⟨nofun, nofun⟩
  | append_singleton steps step ih =>
    rw [after_append]
    exact ih.step (orderly_after setup steps) step

/-! ### Handlers that are taken back -/

/-- A handler is not handed out. -/
def Withheld (s : Scene) (h : Nat) : Prop := ∀ b place, s.handedAt b place ≠ some h

/-- A handler that is not handed out is never handed out again. -/
theorem Withheld.step (withheld : s.Withheld h) (orderly : s.Orderly)
    (bound : h < s.handlers.length) (step : Step) : (s.step step).2.Withheld h := by
  intro b place is
  rcases handedAt_step orderly step is with old | ⟨new, -⟩
  · exact withheld b place old
  · exact Nat.not_le_of_lt bound new

theorem mem_named_unbind :
    h ∈ s.named (.unbind b) ↔ ∃ place, s.handedAt b place = some h := by
  cases known : s.bindings[b]? with
  | none => simp [named, handedAt, known]
  | some binding =>
    simp only [named, handedAt, known, Option.map_some, Option.getD_some, Option.bind_some,
      List.mem_filterMap, id]
    constructor
    · rintro ⟨number, mem, rfl⟩
      obtain ⟨place, found⟩ := List.mem_iff_getElem?.mp mem
      exact ⟨place, by rw [numberAt?, found]; rfl⟩
    · rintro ⟨place, found⟩
      obtain ⟨number, known, rfl⟩ := Option.bind_eq_some_iff.mp found
      exact ⟨_, List.mem_of_getElem? known, rfl⟩

/-- What a step is told to unbind is there. -/
theorem HandsOut.lt_of_named (handsOut : s.HandsOut) {step : Step} (mem : h ∈ s.named step) :
    h < s.handlers.length := by
  cases step with
  | unbind b =>
    obtain ⟨place, is⟩ := mem_named_unbind.mp mem
    exact handsOut.there is
  | unbindHandler b place =>
    have is : s.handedAt b place = some h := Option.mem_toList.mp mem
    exact handsOut.there is
  | _ => cases mem

/-- A handler that is unbound is taken back. -/
theorem withheld_step (handsOut : s.HandsOut) (orderly : s.Orderly) {step : Step}
    (mem : h ∈ s.named step) : (s.step step).2.Withheld h := by
  intro b place is
  cases step with
  | unbind b' =>
    rw [handedAt, step_bindings orderly (.unbind b') fun _ _ => nofun] at is
    obtain ⟨place', was⟩ := mem_named_unbind.mp mem
    obtain ⟨rfl, -⟩ := handsOut.once (s.handedAt_rebound (.unbind b') is) was
    rw [rebound, List.getElem?_modify_eq] at is
    obtain ⟨binding, known, found⟩ := Option.bind_eq_some_iff.mp is
    obtain ⟨-, -, rfl⟩ := Option.map_eq_some_iff.mp known
    cases found
  | unbindHandler b' place' =>
    rw [handedAt, step_bindings orderly (.unbindHandler b' place') fun _ _ => nofun] at is
    have was : s.handedAt b' place' = some h := Option.mem_toList.mp mem
    obtain ⟨rfl, rfl⟩ := handsOut.once (s.handedAt_rebound (.unbindHandler b' place') is) was
    rw [rebound, List.getElem?_modify_eq] at is
    obtain ⟨binding, known, found⟩ := Option.bind_eq_some_iff.mp is
    obtain ⟨before, -, rfl⟩ := Option.map_eq_some_iff.mp known
    rw [numberAt?_emptied, if_pos rfl] at found
    cases found
  | _ => cases mem

theorem exists_handedAt_of_named {step : Step} (mem : h ∈ s.named step) :
    ∃ b place, s.handedAt b place = some h := by
  cases step with
  | unbind b => exact ⟨b, mem_named_unbind.mp mem⟩
  | unbindHandler b place => exact ⟨b, place, Option.mem_toList.mp mem⟩
  | _ => cases mem

/-- A step is told once to unbind a handler. -/
theorem HandsOut.nodup_named (handsOut : s.HandsOut) (step : Step) : (s.named step).Nodup := by
  cases step with
  | unbind b =>
    cases known : s.bindings[b]? with
    | none => simp [named, known]
    | some binding =>
      simp only [named, known, Option.map_some, Option.getD_some]
      refine List.pairwise_filterMap.mpr (List.pairwise_iff_getElem.mpr ?_)
      intro i j lt lt' before h is h' is' same
      -- The same handler at two places of a binding would be handed out twice.
      have at_place {place : Nat} {h : Nat} (lt : place < binding.places.length)
          (is : id binding.places[place] = some h) : s.handedAt b place = some h := by
        rw [handedAt, known, Option.bind_some, numberAt?, List.getElem?_eq_getElem lt]
        exact is
      have := (handsOut.once (at_place lt is) (same ▸ at_place lt' is')).2
      omega
  | unbindHandler b place =>
    simp only [named]
    cases s.bindings[b]?.bind (numberAt? · place) <;> simp
  | _ => exact List.nodup_nil

/-- A handler that is not handed out is not unbound any more. -/
theorem Withheld.notMem_unboundIn (withheld : s.Withheld h) (orderly : s.Orderly)
    (bound : h < s.handlers.length) (steps : List Step) : h ∉ s.unboundIn steps := by
  induction steps generalizing s with
  | nil => exact List.not_mem_nil
  | cons step rest ih =>
    obtain ⟨orderly', later⟩ := orderly.step step
    rw [unboundIn, List.mem_append, not_or]
    refine ⟨fun mem => ?_, ih (withheld.step orderly bound step) orderly'
      (Nat.lt_of_lt_of_le bound later.length_handlers)⟩
    obtain ⟨b, place, handed⟩ := exists_handedAt_of_named (List.mem_filter.mp mem).1
    exact withheld b place handed

end TriggerSheet.Scene
