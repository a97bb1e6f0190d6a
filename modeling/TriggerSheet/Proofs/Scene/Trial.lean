import TriggerSheet.Proofs.Report.Verdict
import TriggerSheet.Proofs.Scene.Account
import TriggerSheet.Proofs.Scene.Bound

/-!
# Trying out a sheet

A sheet is tried out by a play that binds it and fires each of its clauses once. Whatever fires
them, and in whatever order, what then happens to the effect calls is what the report on the sheet
says: as many are skipped, the others run on every element that was found, and where the standard
effects are registered and no others, every single call goes as its verdict says.

## Main definitions

* `Verdict.events` — what happens to a call, as its verdict has it
* `Scene.TriesOut` — a play binds a sheet, and each of its clauses has fired once
* `Scene.FollowsVerdicts` — a firing treats the calls of its clause as the verdicts say

## Main results

* `Scene.skip_owned_after` — a skipped call is reported by a firing
* `Scene.TriesOut.countP_events` — counting what happens to the calls of a sheet
* `Scene.report_decides` — the report says what happens when the sheet is tried out
-/

namespace TriggerSheet

theorem Event.isEffect_iff {event : Event} : event.isEffect = true ↔ event.IsEffect := by
  cases event <;> simp [isEffect, IsEffect]

theorem Sink.isSkip_event (sink : Sink) (d : Diagnostic) : (sink.event d).isSkip = d.isSkip := by
  cases sink <;> rfl

theorem Sink.isEffect_event (sink : Sink) (d : Diagnostic) : (sink.event d).isEffect = false := by
  cases sink <;> rfl

/-- What happens to a call, as its verdict has it. -/
def Verdict.events (sink : Sink) (found : List Target) (property : String) (call : Call) :
    Verdict → List Event
  | runs => found.map fun target => .effect call.name target call.argument
  | incompatible => [sink.event (.incompatibleEffect call.name property)]
  | unlisted => [sink.event (.unknownEffect call.name property)]

/-! ### Calls -/

section Calls

variable {effects : Registry Effect}
  (has : ∀ effect ∈ Category.listed, effects.contains effect = true) (sink : Sink)
  (found : List Target) (property : String) (call : Call)

/-- A call that no registered effect or no property accepts is skipped, and else it runs. -/
theorem Call.events_cases :
    (acceptsEffect property call.name = true ∧ call.events effects sink found property =
        found.map fun target => .effect call.name target call.argument) ∨
      (acceptsEffect property call.name = false ∨ effects.contains call.name = false) ∧
        ∃ d : Diagnostic, d.isSkip = true ∧
          call.events effects sink found property = [sink.event d] := by
  unfold Call.events
  cases known : effects.lookup? call.name with
  | none => exact .inr ⟨.inr (by rw [Registry.contains, known]; rfl), _, rfl, rfl⟩
  | some steps =>
    cases accepted : acceptsEffect property call.name with
    | true => exact .inl ⟨rfl, rfl⟩
    | false => exact .inr ⟨.inl rfl, _, rfl, rfl⟩

include has

theorem Call.not_accepts_of_skip
    (skips : acceptsEffect property call.name = false ∨ effects.contains call.name = false) :
    acceptsEffect property call.name = false := by
  rcases skips with refused | unknown
  · exact refused
  · refine Bool.eq_false_iff.mpr fun accepted => ?_
    rw [has _ (mem_listed_of_acceptsEffect accepted)] at unknown
    cases unknown

/-- With the standard effects registered, a call reports that it is skipped if the property does
not accept it. -/
theorem Call.countP_isSkip :
    (call.events effects sink found property).countP Event.isSkip =
      if !acceptsEffect property call.name then 1 else 0 := by
  rcases events_cases sink found property call with ⟨accepted, runs⟩ | ⟨skips, d, skip, reports⟩
  · rw [runs, accepted, List.countP_map]
    exact List.countP_eq_zero.mpr fun _ _ => by simp [Event.isSkip]
  · rw [reports, not_accepts_of_skip has property call skips, List.countP_singleton,
      Sink.isSkip_event, skip]
    rfl

/-- A call that the property accepts runs on every element that was found. -/
theorem Call.countP_isEffect :
    (call.events effects sink found property).countP Event.isEffect =
      if acceptsEffect property call.name then found.length else 0 := by
  rcases events_cases sink found property call with ⟨accepted, runs⟩ | ⟨skips, d, -, reports⟩
  · rw [runs, accepted, List.countP_map]
    exact List.countP_eq_length.mpr fun _ _ => rfl
  · rw [reports, not_accepts_of_skip has property call skips, List.countP_singleton,
      Sink.isEffect_event]
    rfl

/-- With the standard effects registered and no others, a call goes as its verdict says. -/
theorem Call.events_eq
    (only : ∀ effect, effects.contains effect = true → effect ∈ Category.listed) :
    call.events effects sink found property =
      (Verdict.ofCall property call).events sink found property call := by
  rw [Call.events, Verdict.ofCall_eq]
  cases known : effects.lookup? call.name with
  | none =>
    have unlisted : call.name ∉ Category.listed := by
      intro mem
      have contains := has _ mem
      rw [Registry.contains, known] at contains
      cases contains
    rw [if_neg unlisted]
    rfl
  | some steps =>
    rw [if_pos (only _ (by rw [Registry.contains, known]; rfl))]
    dsimp only
    split <;> rfl

end Calls

theorem countP_flatMap_eq_mul {α β : Type} {p : β → Bool} {q : α → Bool} {f : α → List β}
    (weight : Nat) (each : ∀ a, (f a).countP p = if q a then weight else 0) (l : List α) :
    (l.flatMap f).countP p = weight * l.countP q := by
  induction l with
  | nil => rfl
  | cons a l ih =>
    rw [List.flatMap_cons, List.countP_append, ih, each, List.countP_cons]
    split
    · rw [Nat.mul_add, Nat.mul_one, Nat.add_comm]
    · rw [Nat.zero_add, Nat.add_zero]

/-- A handler that found elements goes through the calls of its clause. -/
theorem Handler.events_of_ne_nil (handler : Handler) (effects : Registry Effect)
    {found : List Target} (some : found ≠ []) :
    handler.events effects found =
      .logged (.fired handler.selector handler.trigger found.length) ::
        handler.clause.2.calls.flatMap fun call =>
          call.2.events effects handler.sink found call.1 := by
  rw [Handler.events, if_neg some, clause, Clause.calls, List.flatMap_assoc]
  simp only [List.flatMap_map]
  rfl

/-! ### Entries of firings -/

/-- What belongs to firings is counted firing by firing. -/
theorem countP_eq_sum_ownEntries {journal : List JournalEntry} {n : Nat} {p : JournalEntry → Bool}
    (owned : ∀ entry ∈ journal, p entry = true → ∃ f < n, entry.firing = some f) :
    journal.countP p = ((List.range n).map fun f => (ownEntries journal f).countP p).sum := by
  -- Take the entries of the last firing out, and count those of the others.
  induction n generalizing p with
  | zero =>
    refine List.countP_eq_zero.mpr fun entry mem is => ?_
    obtain ⟨f, lt, -⟩ := owned entry mem is
    exact absurd lt (Nat.not_lt_zero f)
  | succ n ih =>
    let others := fun entry : JournalEntry => p entry && !decide (entry.firing = some n)
    have rest : journal.countP others =
        ((List.range n).map fun f => (ownEntries journal f).countP p).sum := by
      rw [ih]
      · refine congrArg List.sum (List.map_congr_left fun f mem => List.countP_congr ?_)
        intro entry own
        have firing : entry.firing = some f := by simpa using (List.mem_filter.mp own).2
        have other : f ≠ n := Nat.ne_of_lt (List.mem_range.mp mem)
        simp [others, firing, other]
      · intro entry mem is
        obtain ⟨is, other⟩ : p entry = true ∧ entry.firing ≠ some n := by simpa [others] using is
        obtain ⟨f, lt, firing⟩ := owned entry mem is
        refine ⟨f, ?_, firing⟩
        have : f ≠ n := fun same => other (same ▸ firing)
        omega
    rw [List.range_succ, List.map_append, List.sum_append, ← rest,
      List.countP_eq_countP_filter_add journal p fun entry => decide (entry.firing = some n),
      Nat.add_comm, List.countP_filter]
    rfl

namespace Scene

variable {s t : Scene}

/-- Calls that are skipped from one scene to another are reported by firings. -/
def Owns (s t : Scene) : Prop :=
  ∀ entry ∈ t.journal, entry ∈ s.journal ∨ (entry.event.isSkip = true → entry.firing ≠ none)

theorem Owns.trans {u : Scene} (first : s.Owns t) (second : t.Owns u) : s.Owns u :=
  fun entry mem => (second entry mem).elim (first entry) .inr

theorem owns_of_eq (same : t.journal = s.journal) : s.Owns t :=
  fun _ mem => .inl (same ▸ mem)

theorem chained_owns : Chained Owns := ⟨fun _ => owns_of_eq rfl, fun _ => Owns.trans⟩

theorem owns_record (s : Scene) {firing : Option Nat} {event : Event}
    (owned : event.isSkip = true → firing ≠ none) : s.Owns (s.record firing event) := by
  intro entry mem
  rcases List.mem_append.mp mem with old | new
  · exact .inl old
  · cases List.mem_singleton.mp new
    exact .inr owned

theorem owns_cancel (s : Scene) (id : Nat) : s.Owns (s.cancel id) :=
  owns_record { s with page := s.page.cancel id } fun is => nomatch is

theorem owns_clear (s : Scene) (h e : Nat) : s.Owns (s.clear h e) := by
  unfold clear
  split
  · exact owns_cancel (s.hold h e none) _
  · exact owns_of_eq rfl

theorem owns_enter (s : Scene) (h : Nat) (cause : Cause) : s.Owns (s.enter h cause) := by
  have called (c : Callback) : s.Owns (s.record none (.called c)) :=
    s.owns_record fun is => nomatch is
  cases cause with
  | event => exact called (.event h)
  | held e => exact called (.elapse h e)
  | revealed e =>
    exact Owns.trans (called (.see h e true))
      (owns_clear ((s.record none (.called (.see h e true))).modifyEntry h e
        ({ · with revealed := true })) h e)
  | alreadyPast | manual => exact owns_of_eq rfl

/-- A move that skips a call belongs to a firing. -/
theorem owns_move (s : Scene) {m : Move}
    (plain : ∀ event, m = .record none event → event.isSkip = false) : s.Owns (s.move m) := by
  cases m with
  | record firing event =>
    refine s.owns_record fun skip is => ?_
    rw [plain event (by rw [is])] at skip
    cases skip
  | fire h cause =>
    refine (s.owns_enter h cause).trans ?_
    change (s.enter h cause).Owns ((s.enter h cause).opened h cause)
    unfold opened
    split
    · exact owns_of_eq rfl
    · exact owns_record ((s.enter h cause).beginFiring h cause) fun is => nomatch is
  | count h f note => exact owns_record (s.countFiring h) fun _ => Option.some_ne_none f
  | listen h scope event callback =>
    exact owns_record { s with page := s.page.listen scope event callback } fun is => nomatch is
  | observe h e target threshold =>
    exact owns_record { s with page := s.page.observe target h e } fun is => nomatch is
  | start h e delay =>
    exact owns_record { s with page := s.page.schedule delay h e } fun is => nomatch is
  | see h e entered => exact s.owns_record fun is => nomatch is
  | abandon h e id | mute h id => exact s.owns_cancel id
  | clear h e | quit h e => exact s.owns_clear h e
  | turn | spend | rebind | add | watch | advance => exact owns_of_eq rfl

theorem closed_owns {kind : Move → Prop}
    (plain : ∀ event, kind (.record none event) → event.isSkip = false) : Closed Owns kind :=
  fun _ is s _ _ => s.owns_move fun event eq => plain event (eq ▸ is)

theorem carried_owns : Carried Owns := by
  refine chained_owns.carried (closed_owns fun event runs => ?_)
  rcases runs with ⟨c, does⟩ | ⟨_, is⟩ | is | is | ⟨_, _, is⟩
  · -- A callback notes that it is called, and that it starts a timer.
    cases c with
    | press h e => rcases does with is | is | is | ⟨_, is⟩ <;> cases is <;> rfl
    | release h e => rcases does with is | is <;> cases is; rfl
    | see h e entered => cases does
    | event | elapse => exact does.elim
  · exact is.elim
  · exact is.elim
  · exact is.elim
  · cases is

theorem leads_owns_step (step : Step) : s.Leads Owns (s.step step).2 := by
  refine carried_owns.step (fun h _ => closed_owns fun event binds => ?_)
    (fun h _ => closed_owns fun event unwires => unwires.elim)
    (closed_owns fun event rebinds => rebinds.elim)
  rcases binds with wires | ⟨handler, is⟩
  · exact wires
  · cases is

/-- In every play, what calls an effect or reports a skipped call is a firing. -/
theorem skip_owned_after (setup : Setup) (steps : List Step) :
    ∀ entry ∈ (setup.start.after steps).journal,
      entry.event.isSkip = true ∨ entry.event.isEffect = true →
        ∃ f < (setup.start.after steps).firings.length, entry.firing = some f := by
  obtain ⟨-, -, tail, adds⟩ :=
    chained_addsNew.leads_after leads_addsNew_step setup.start steps (orderly_start setup)
  obtain ⟨-, -, owns⟩ := chained_owns.leads_after (fun _ => leads_owns_step) setup.start steps
    (orderly_start setup)
  have journal : (setup.start.after steps).journal = tail := adds.journal
  intro entry mem is
  have owned : entry.firing ≠ none := by
    rcases is with skip | effect
    · -- A play starts with an empty journal.
      exact (owns entry mem).elim (fun old => absurd old List.not_mem_nil) (· skip)
    · exact adds.effects entry (journal ▸ mem) (Event.isEffect_iff.mp effect)
  obtain ⟨f, firing⟩ := Option.ne_none_iff_exists'.mp owned
  exact ⟨f, adds.bound entry (journal ▸ mem) f firing, firing⟩

/-! ### Trying out -/

/-- A play binds a sheet so that every clause gets one of the handlers `numbers`. Each of them has
fired once by the end and found `k` elements, and no other handler has fired. -/
structure TriesOut (setup : Setup) (source : String) (numbers : List Nat) (k : Nat) (s : Scene) :
    Prop where
  played : ∃ before route rest,
    numbers = (setup.start.after before).numbersOf route (.text source) ∧
      s = ((setup.start.after before).step (.bind route (.text source))).2.after rest
  each : numbers.length = (Source.text source).clauses.length
  once : (s.firings.map (·.handler)).Perm numbers
  found : ∀ f < s.firings.length, (foundBy s.journal f).length = k

/-- A firing treats the calls of its clause as the verdicts on them say, in order. -/
def FollowsVerdicts (s : Scene) (k f : Nat) (firing : Firing) : Prop :=
  ∃ handler found, s.handlers[firing.handler]? = some handler ∧ found.length = k ∧
    (ownEntries s.journal f).map (·.event) =
      .query handler.selector found :: .logged (.fired handler.selector handler.trigger k) ::
        handler.clause.2.calls.flatMap fun call =>
          (Verdict.ofCall call.1 call.2).events handler.sink found call.1 call.2

section TriesOut

variable {setup : Setup} {source : String} {numbers : List Nat} {k : Nat}
  (triesOut : TriesOut setup source numbers k s)

include triesOut

theorem TriesOut.eq_after : ∃ steps, s = setup.start.after steps := by
  obtain ⟨before, route, rest, -, rfl⟩ := triesOut.played
  exact ⟨before ++ .bind route (.text source) :: rest, by rw [after_append, after_cons]⟩

/-- The handlers carry the clauses of the sheet, in order. -/
theorem TriesOut.clauses :
    numbers.map s.clauseAt? = (Source.text source).clauses.map some := by
  obtain ⟨before, route, rest, rfl, rfl⟩ := triesOut.played
  have orderly := orderly_after setup before
  have later := ((orderly.step (.bind route (.text source))).1.after rest).2
  exact clauses_bind orderly route (.text source) later triesOut.each

/-- What a firing notes: its query found `k` elements, and it went through the calls. -/
theorem TriesOut.events (pos : 0 < k) {f : Nat} {firing : Firing}
    (known : s.firings[f]? = some firing) :
    ∃ handler found, s.handlers[firing.handler]? = some handler ∧ found.length = k ∧
      (ownEntries s.journal f).map (·.event) =
        .query handler.selector found :: .logged (.fired handler.selector handler.trigger k) ::
          handler.clause.2.calls.flatMap fun call =>
            call.2.events setup.effects handler.sink found call.1 := by
  obtain ⟨steps, rfl⟩ := triesOut.eq_after
  obtain ⟨handler, there, found, -, events, -⟩ :=
    accounts_after setup steps known
  have asked : foundBy (setup.start.after steps).journal f = found := by
    have head := congrArg List.head? events
    rw [List.head?_map, List.head?_cons] at head
    rw [foundBy, head]
  have length := triesOut.found f (List.getElem?_eq_some_iff.mp known).1
  rw [asked] at length
  have some : found ≠ [] := List.ne_nil_of_length_pos (length ▸ pos)
  have same : (setup.start.after steps).setup = setup :=
    ((orderly_start setup).after steps).2.setup
  rw [handler.events_of_ne_nil _ some, length, same] at events
  exact ⟨handler, found, there, length, events⟩

/-- If each call of a kind gives rise to equally many events and others to none, the events of a
whole play are counted by the calls of the sheet. -/
theorem TriesOut.countP_events (pos : 0 < k) {p : Event → Bool} {q : String × Call → Bool}
    (weight : Nat) (owned : ∀ event, p event = true → event.isSkip = true ∨ event.isEffect = true)
    (each : ∀ sink (found : List Target) (call : String × Call), found.length = k →
      (call.2.events setup.effects sink found call.1).countP p = if q call then weight else 0) :
    s.events.countP p = weight * (Block.calls (Sheet.parse source)).countP q := by
  obtain ⟨steps, at'⟩ := triesOut.eq_after
  have none {event : Event} (plain : event.isSkip = false) (still : event.isEffect = false) :
      p event = false := by
    refine Bool.eq_false_iff.mpr fun is => ?_
    rcases owned event is with skip | effect
    · exact Bool.false_ne_true (plain.symm.trans skip)
    · exact Bool.false_ne_true (still.symm.trans effect)
  -- What the clause of a handler has to give.
  let share (h : Nat) : Nat :=
    ((s.clauseAt? h).map fun clause => weight * clause.2.calls.countP q).getD 0
  have own (f : Nat) (firing : Firing) (known : s.firings[f]? = some firing) :
      (ownEntries s.journal f).countP (p ∘ (·.event)) = share firing.handler := by
    obtain ⟨handler, found, there, length, events⟩ := triesOut.events pos known
    have share_eq : share firing.handler = weight * handler.clause.2.calls.countP q := by
      simp only [share, clauseAt?, there, Option.map_some, Option.getD_some]
    have asks : p (.query handler.selector found) = false := none rfl rfl
    have notes : p (.logged (.fired handler.selector handler.trigger k)) = false := none rfl rfl
    rw [share_eq, ← List.countP_map, events, List.countP_cons_of_neg (Bool.eq_false_iff.mp asks),
      List.countP_cons_of_neg (Bool.eq_false_iff.mp notes)]
    exact countP_flatMap_eq_mul weight (fun call => each handler.sink found call length) _
  calc s.events.countP p
      = s.journal.countP (p ∘ (·.event)) := List.countP_map ..
    _ = ((List.range s.firings.length).map fun f =>
          (ownEntries s.journal f).countP (p ∘ (·.event))).sum := by
        refine countP_eq_sum_ownEntries fun entry mem is => ?_
        subst at'
        exact skip_owned_after setup steps entry mem (owned entry.event is)
    _ = ((s.firings.map (·.handler)).map share).sum := by
        refine congrArg List.sum (List.ext_getElem (by simp) fun f lt _ => ?_)
        simp only [List.getElem_map, List.getElem_range]
        exact own f _ (List.getElem?_eq_getElem _)
    _ = (numbers.map share).sum := (triesOut.once.map share).sum_nat
    _ = (((Source.text source).clauses.map some).map fun clause =>
          (clause.map fun clause => weight * clause.2.calls.countP q).getD 0).sum := by
        rw [← triesOut.clauses, List.map_map]
        rfl
    _ = weight * (Block.calls (Sheet.parse source)).countP q := by
        have calls : Block.calls (Sheet.parse source) =
            (Source.text source).clauses.flatMap fun clause => clause.2.calls := by
          simp only [Block.calls, Source.clauses, Source.sheet, List.flatMap_assoc,
            List.flatMap_map]
        rw [calls, List.countP_flatMap, List.map_map]
        exact List.sum_map_mul_left ..

variable (has : ∀ effect ∈ Category.listed, setup.effects.contains effect = true)

include has

/-- The calls that the report counts as skipped are those that are skipped. -/
theorem TriesOut.skipped_eq (pos : 0 < k) :
    (Summary.ofBlocks (Sheet.parse source)).skipped = s.events.countP Event.isSkip := by
  rw [Summary.skipped_ofBlocks, triesOut.countP_events pos 1 (fun _ => .inl)
    fun sink found call _ => Call.countP_isSkip has sink found call.1 call.2, Nat.one_mul]

/-- The calls that the report does not count as skipped run on every element. -/
theorem TriesOut.countP_isEffect (pos : 0 < k) :
    s.events.countP Event.isEffect =
      k * ((Summary.ofBlocks (Sheet.parse source)).calls -
        (Summary.ofBlocks (Sheet.parse source)).skipped) := by
  have runs : s.events.countP Event.isEffect = k * (Block.calls (Sheet.parse source)).countP
      fun call => acceptsEffect call.1 call.2.name :=
    triesOut.countP_events pos k (fun _ => .inr) fun sink found call length => by
      rw [Call.countP_isEffect has, length]
  rw [runs, Summary.calls_ofBlocks, Summary.skipped_ofBlocks,
    List.length_eq_countP_add_countP fun call : String × Call => acceptsEffect call.1 call.2.name]
  simp

theorem TriesOut.followsVerdicts (pos : 0 < k)
    (only : ∀ effect, setup.effects.contains effect = true → effect ∈ Category.listed) {f : Nat}
    {firing : Firing} (known : s.firings[f]? = some firing) : s.FollowsVerdicts k f firing := by
  obtain ⟨handler, found, there, length, events⟩ := triesOut.events pos known
  refine ⟨handler, found, there, length, events.trans ?_⟩
  congr 3
  funext call
  exact Call.events_eq has handler.sink found call.1 call.2 only

end TriesOut

/-- The report on a sheet says what happens when the sheet is tried out with the standard effects
registered, whatever else is; and a strict run on it fails if a call would be skipped. -/
theorem report_decides (source : String) {effects : Registry Effect}
    (has : ∀ effect ∈ Category.listed, effects.contains effect = true) :
    let blocks := Sheet.parse source
    let summary := Summary.ofBlocks blocks
    summary.triggers = (blocks.map (·.clauses.length)).sum ∧
      summary.calls = (Block.calls blocks).length ∧
      (∀ {setup : Setup} {numbers : List Nat} {k : Nat} {s : Scene}, setup.effects = effects →
        0 < k → TriesOut setup source numbers k s →
          numbers.map s.clauseAt? = (Source.text source).clauses.map some ∧
            summary.skipped = s.events.countP Event.isSkip ∧
            s.events.countP Event.isEffect = k * (summary.calls - summary.skipped) ∧
            ((∀ effect, effects.contains effect = true → effect ∈ Category.listed) →
              ∀ f firing, s.firings[f]? = some firing → s.FollowsVerdicts k f firing)) ∧
      ∀ {arguments : List String} {inspection : Inspection}
        {read : Origin → Except ReadFailure ByteArray} {bytes : ByteArray},
        Request.ofArguments arguments = .inspect inspection → inspection.strict = true →
        read inspection.origin = .ok bytes → String.fromUTF8? bytes = some source →
        ¬source.toList.all Text.isBlank →
          ((CommandLine.run arguments read).exit = 1 ↔ ∃ call ∈ Block.calls blocks,
            acceptsEffect call.1 call.2.name = false ∨ effects.contains call.2.name = false) := by
  refine ⟨Summary.triggers_ofBlocks _, Summary.calls_ofBlocks _, ?_, ?_⟩
  · rintro setup numbers k s rfl pos triesOut
    exact ⟨triesOut.clauses, triesOut.skipped_eq has pos, triesOut.countP_isEffect has pos,
      fun only f firing known => triesOut.followsVerdicts has pos only known⟩
  · intro arguments inspection read bytes asked strict found text filled
    rw [CommandLine.exit_eq_one_iff asked strict found text filled]
    -- What is not registered is not accepted either.
    exact exists_congr fun call => and_congr_right fun _ =>
      ⟨.inl, Call.not_accepts_of_skip has call.1 call.2⟩

/-- A call that runs, one that the property does not accept, and one that nobody registered. -/
def mixedCalls : String :=
  "b \x7b click \x7b text: fall, paint; \x7d hover \x7b color: zap; \x7d \x7d"

/-- Two elements, and the standard effects, none of which takes page steps. -/
def standardSetup : Setup := .plain [("b", [1, 2])] (Category.listed.map (·, .script [])) 0

/-- The scene in which a click has fired the first clause, and the second was fired by hand. -/
def mixedScene : Scene :=
  (standardSetup.start.step (.bind .engine (.text mixedCalls))).2.after
    [.page (.emit (.target 2) "click"), .fire 0 1]

theorem triesOut_mixedScene : TriesOut standardSetup mixedCalls [0, 1] 2 mixedScene where
  played := ⟨[], .engine, _, by decide +kernel, rfl⟩
  each := by decide +kernel
  once := by
    have handlers : mixedScene.firings.map (·.handler) = [0, 1] := by decide +kernel
    rw [handlers]
  found := by decide +kernel

/-- Two of the three calls are skipped, and the first runs on both elements. -/
theorem report_decides_mixedCalls :
    (∀ effect, standardSetup.effects.contains effect = true ↔ effect ∈ Category.listed) ∧
      TriesOut standardSetup mixedCalls [0, 1] 2 mixedScene ∧
      (Summary.ofBlocks (Sheet.parse mixedCalls)).skipped = 2 ∧
      mixedScene.events.countP Event.isSkip = 2 ∧ mixedScene.events.countP Event.isEffect = 2 ∧
      mixedScene.FollowsVerdicts 2 0 ⟨0, .event⟩ ∧ mixedScene.FollowsVerdicts 2 1 ⟨1, .manual⟩ ∧
      (CommandLine.run ["--strict"] fun _ => .ok mixedCalls.toByteArray).exit = 1 := by
  have registered (effect : String) :
      standardSetup.effects.contains effect = true ↔ effect ∈ Category.listed := by
    have names : ∀ effect ∈ Category.listed, ∃ entry ∈ standardSetup.effects.entries,
        effect = entry.1 := by decide +kernel
    have names' : ∀ entry ∈ standardSetup.effects.entries, entry.1 ∈ Category.listed := by
      decide +kernel
    rw [Registry.contains, Registry.lookup?, List.lookup_isSome_iff]
    simp only [beq_iff_eq]
    exact ⟨fun ⟨entry, mem, is⟩ => is ▸ names' entry mem, names effect⟩
  have text : String.fromUTF8? mixedCalls.toByteArray = some mixedCalls :=
    dif_pos mixedCalls.isValidUTF8
  obtain ⟨-, -, tried, strict⟩ :=
    report_decides mixedCalls fun effect mem => (registered effect).mpr mem
  obtain ⟨-, skipped, effects, follows⟩ := tried rfl Nat.two_pos triesOut_mixedScene
  have counts : (Summary.ofBlocks (Sheet.parse mixedCalls)).skipped = 2 ∧
      (Summary.ofBlocks (Sheet.parse mixedCalls)).calls = 3 := by decide +kernel
  have firings : mixedScene.firings = [⟨0, .event⟩, ⟨1, .manual⟩] := by decide +kernel
  rw [counts.1, counts.2] at effects
  rw [counts.1] at skipped
  have follows := follows fun effect => (registered effect).mp
  rw [firings] at follows
  refine ⟨registered, triesOut_mixedScene, counts.1, skipped.symm, effects, follows 0 _ rfl,
    follows 1 _ rfl, ?_⟩
  have asked : Request.ofArguments ["--strict"] = .inspect ⟨.standardInput, false, true⟩ := rfl
  have filled : ¬mixedCalls.toList.all Text.isBlank := by decide +kernel
  exact (strict asked rfl rfl text filled).mpr (by decide +kernel)

end Scene

end TriggerSheet
