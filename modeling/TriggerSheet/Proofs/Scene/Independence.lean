import TriggerSheet.Proofs.Scene.Alone
import TriggerSheet.Proofs.Scene.Arrival

/-!
# Independence of clauses

While effects take no page steps, clauses do not interfere. What a handler has to itself when its
clause is bound is told by the clause and by what the page answers, which only page steps change;
from then on the handler behaves as if it were alone. So two plays in which the same clause is bound
and the same happens to it cannot be told apart by looking at its handler, whatever else they bind,
fire, unbind and drop.

## Main definitions

* `pageSteps` — what happens to the page in a play
* `Staging` — a clause that a play binds
* `Conduct`, `Scene.conduct` — what can be seen of a handler

## Main results

* `Scene.plain_after` — what the page answers in a play is told by the page steps alone
* `Staging.solo_scene` — what a handler has to itself behind the bind of its clause
* `Staging.conduct_after` — the same clause behaves alike in two plays
-/

namespace TriggerSheet

/-! ### What the page answers -/

/-- The page when something happens to it, but for what runs then. -/
def Page.turned (p : Page) : PageStep → Page
  | .advance time => p.advance time
  | .setMatches selector targets => p.setMatches selector targets
  | .setLoaded value => { p with loaded := value }
  | .setContentReady value => { p with contentReady := value }
  | .emit _ _ | .visibility _ _ | .pause => p

/-- What happens to the page in some steps. -/
def pageSteps (steps : List Step) : List PageStep :=
  steps.filterMap fun
    | .page .pause => none
    | .page p => some p
    | _ => none

namespace Scene

variable {s t : Scene}

/-- While effects take no page steps, the page answers the same. -/
def SameAnswers (s t : Scene) : Prop := s.setup.Quiet → t.page.plain = s.page.plain

theorem chained_sameAnswers : Chained SameAnswers where
  refl _ := fun _ => rfl
  trans later first second := fun quiet => (second (later.quiet quiet)).trans (first quiet)

theorem closed_sameAnswers {kind : Move → Prop}
    (still : ∀ m, kind m → ¬m.Turns ∧ ¬m.Advances) : Closed SameAnswers kind :=
  fun m is _ _ _ _ => move_page_plain (still m is).1 (still m is).2

theorem fires_sameAnswers (depth h : Nat) (cause : Cause) :
    Fires SameAnswers (reactWithin depth) h cause := by
  refine fires_of_closed chained_sameAnswers
    (admits_of_quiet (Q := fun s t => t.page.plain = s.page.plain) (fun _ => rfl) depth)
    (closed_sameAnswers fun m continues => ?_) (closed_sameAnswers fun m begins => ?_)
  · cases m <;> first | exact continues.elim | exact ⟨id, id⟩
  · cases begins
    exact ⟨id, id⟩

theorem closed_sameAnswers_binds (h : Nat) : Closed SameAnswers (Move.Binds h) :=
  closed_sameAnswers fun m binds => by
    rcases binds with wires | ⟨handler, rfl⟩
    · cases m <;> first | exact wires.elim | exact ⟨id, id⟩
    · exact ⟨id, id⟩

/-- What runs does not change what the page answers. -/
theorem leads_sameAnswers_runAll (depth : Nat) {callbacks : List Callback}
    (fits : ∀ c ∈ callbacks, s.Fits c) :
    s.Leads SameAnswers (runAll (reactWithin depth) s callbacks) := by
  refine leads_runAll chained_sameAnswers callbacks fits fun c _ t =>
    leads_run chained_sameAnswers (closed_sameAnswers fun m does => ?_)
      fun cause _ => fires_sameAnswers depth c.handler cause
  cases c with
  | press h e => rcases does with rfl | rfl | rfl | ⟨_, rfl⟩ <;> exact ⟨id, id⟩
  | release h e => rcases does with rfl | rfl <;> exact ⟨id, id⟩
  | see h e entered =>
    cases does
    exact ⟨id, id⟩
  | event | elapse => exact does.elim

theorem perform_plain (orderly : s.Orderly) (quiet : s.setup.Quiet) (depth : Nat)
    (step : PageStep) :
    (perform (reactWithin depth) s step).2.page.plain = s.page.plain.turned step := by
  cases step with
  | emit scope event =>
    exact (leads_sameAnswers_runAll depth (fun c mem => orderly.fits_listening mem)
      orderly).2.2 quiet
  | visibility target entered =>
    exact (leads_sameAnswers_runAll depth (fun c mem => fits_observing mem) orderly).2.2 quiet
  | advance time =>
    have fits (c : Callback) (mem : c ∈ (s.page.advance time).due) :
        (s.move (.advance time)).Fits c :=
      (s.extends_move (.advance time)).fits (orderly.fits_due mem)
    exact (leads_sameAnswers_runAll depth fits
      (orderly.move (m := .advance time) trivial)).2.2 quiet
  | setMatches | setLoaded | setContentReady | pause => rfl

/-- No step but a page step changes what the page answers. -/
theorem step_plain (orderly : s.Orderly) (quiet : s.setup.Quiet) (step : Step) :
    (s.step step).2.page.plain = (pageSteps [step]).foldl Page.turned s.page.plain := by
  by_cases isPage : ∃ p, step = .page p
  · obtain ⟨p, rfl⟩ := isPage
    -- A pause is left out, and changes nothing.
    have performed := perform_plain orderly quiet s.budget p
    cases p <;> exact performed
  have leads : s.Leads SameAnswers (s.step step).2 := by
    refine chained_sameAnswers.leads_step (fun p is => absurd ⟨p, is⟩ isPage)
      (fun route source _ => ?_) (fun _ _ h _ _ depth => fires_sameAnswers depth h .manual)
      (fun h _ => closed_sameAnswers fun m unwires => ?_) (closed_sameAnswers fun m rebinds => ?_)
    · exact leads_bind chained_sameAnswers (fun h _ => closed_sameAnswers_binds h)
        (fun depth h cause _ => fires_sameAnswers depth h cause)
        (closed_sameAnswers fun m rebinds => by
          cases m <;> first | exact rebinds.elim | exact ⟨id, id⟩) route source
    · cases m <;> first | exact unwires.elim | exact ⟨id, id⟩
    · cases m <;> first | exact rebinds.elim | exact ⟨id, id⟩
  have none : pageSteps [step] = [] := by
    cases step with
    | page p => exact absurd ⟨p, rfl⟩ isPage
    | _ => rfl
  rw [none]
  exact (leads orderly).2.2 quiet

/-- What the page answers in a play is told by the page steps alone. -/
theorem plain_after (orderly : s.Orderly) (quiet : s.setup.Quiet) (steps : List Step) :
    (s.after steps).page.plain = (pageSteps steps).foldl Page.turned s.page.plain := by
  induction steps generalizing s with
  | nil => rfl
  | cons step rest ih =>
    obtain ⟨orderly', later⟩ := orderly.step step
    have split : pageSteps (step :: rest) = pageSteps [step] ++ pageSteps rest :=
      List.filterMap_append (l := [step])
    rw [after_cons, ih orderly' (later.quiet quiet), step_plain orderly quiet, split,
      List.foldl_append]

/-- A play starts fair if its effects take no page steps, and stays so. -/
theorem fair_after {setup : Setup} (quiet : setup.Quiet) (steps : List Step) :
    (setup.start.after steps).Fair :=
  after_of_move (fun _ _ _ allowed fair => fair.move allowed) setup
    { orderly := orderly_start setup
      quiet
      tagged := by simp [Tagged, Setup.start]
      listed := by simp [Listed, Setup.start] } steps

theorem setup_after (setup : Setup) (steps : List Step) :
    (setup.start.after steps).setup = setup :=
  ((orderly_start setup).after steps).2.setup

theorem route_after (setup : Setup) (steps : List Step) (route : Route) :
    (setup.start.after steps).route route = setup.start.route route := by
  have same := setup_after setup steps
  cases route <;> simp only [Scene.route, same] <;> rfl

end Scene

theorem ClauseBind.fair_after {b : ClauseBind} (fair : b.scene.Fair) : b.after.Fair :=
  fair.leads (Scene.leads_bindClause Scene.chained_fairly (n := 0)
    (fun _ _ => Scene.closed_fairly _)
    (fun h cause _ => Scene.carried_fairly.fires_reactWithin b.depth h cause) b.options b.sink
    b.selector b.clause (Nat.zero_le _))

/-! ### What can be seen of a handler -/

/-- What can be seen of a handler. -/
structure Conduct where
  /-- Its firings in order, each with its cause and with all that it noted: the query and what that
  found, effect calls and diagnostics. -/
  firings : List (Cause × List Event)
  fired : Nat
  listenerCount : Nat
  pending : Bool
  deriving DecidableEq, Repr

/-- What can be seen of a handler in a scene. -/
def Scene.conduct (s : Scene) (h : Nat) : Option Conduct :=
  s.handlers[h]?.map fun a => ⟨s.shown h, a.fired, a.listeners.length, a.isPending⟩

/-- What can be seen of a handler is what it has to itself. -/
theorem Scene.conduct_eq (s : Scene) (h : Nat) : s.conduct h =
    (s.solo h).handler.map fun a =>
      ⟨(s.solo h).shown, a.fired, a.listeners.length, a.isPending⟩ := by
  have pending (a : Handler) : a.plain.isPending = a.isPending := by
    simp [Handler.isPending, Handler.plain, Function.comp_def, Entry.plain]
  rw [conduct, solo, Option.map_map]
  refine congrArg (Option.map · s.handlers[h]?) (funext fun a => ?_)
  rw [Function.comp_apply, pending]
  exact congrArg₂ (Conduct.mk _ _) (List.length_map ..).symm rfl

/-! ### Two plays -/

/-- A clause that a play binds: what the play did before, the bind, and the place of the clause in
its source. -/
structure Staging (setup : Setup) where
  before : List Step
  route : Route
  source : Source
  place : Fin source.clauses.length

namespace Staging

variable {setup : Setup} (p q : Staging setup)

/-- The clause, with its selector. -/
def clause : String × Clause := p.source.clauses[p.place]

/-- The options with which the clause is bound. -/
def options : Options := (setup.start.route p.route).1

/-- The clause, with the scene in which it is bound. -/
def bind : ClauseBind :=
  ((setup.start.after p.before).binds (.bind p.route p.source)).get
    (p.place.cast (Scene.length_binds ..).symm)

/-- The number of its handler, if the clause gets one. -/
def handler? : Option Nat := p.bind.handler?

/-- The scene behind the bind. -/
def scene : Scene := setup.start.after (p.before ++ [.bind p.route p.source])

/-- Two plays bind the same clause at the same point: with the same options, and after the same has
happened to the page. -/
structure Alike : Prop where
  clause : p.clause = q.clause
  options : p.options = q.options
  pageSteps : pageSteps p.before = pageSteps q.before

/-- The page when the clause is bound, without its registrations. -/
def page : Page := (pageSteps p.before).foldl Page.turned setup.start.page.plain

theorem bind_mem : p.bind ∈ (setup.start.after p.before).binds (.bind p.route p.source) :=
  List.get_mem ..

theorem bind_clause : p.bind.selector = p.clause.1 ∧ p.bind.clause = p.clause.2 ∧
    p.bind.options = p.options := by
  let s := setup.start.after p.before
  have clauses := congrArg (·[p.place.1]?) (Scene.map_clause_bindsOf (s.read p.source).budget
    (s.route p.route).1 (s.route p.route).2 (s.read p.source) p.source.clauses)
  have there : (s.binds (.bind p.route p.source))[p.place.1]? = some p.bind :=
    List.getElem?_eq_getElem _
  rw [List.getElem?_map, List.getElem?_map, List.getElem?_eq_getElem p.place.isLt,
    Scene.route_after] at clauses
  rw [Scene.binds, Scene.route_after] at there
  rw [there, Option.map_some, Option.map_some, Option.some.injEq, Prod.mk.injEq,
    Prod.mk.injEq] at clauses
  exact clauses

/-- The clause is bound behind what happens before it in the play. -/
theorem leads_bind {Q : Scene → Scene → Prop} (chained : Scene.Chained Q)
    (binds : ∀ h, Scene.Closed Q (Move.Binds h))
    (fires : ∀ depth h cause, Scene.Fires Q (Scene.reactWithin depth) h cause) :
    (setup.start.after p.before).Leads Q p.bind.scene :=
  Scene.leads_before_bind p.bind_mem chained (fun h _ => binds h)
    fun depth h cause _ => fires depth h cause

theorem setup_bind : p.bind.scene.setup = setup := by
  have leads := p.leads_bind Scene.chained_fairly (fun _ => Scene.closed_fairly _)
    (fun depth => Scene.carried_fairly.fires_reactWithin depth) (Scene.orderly_after setup p.before)
  exact leads.2.1.setup.trans (Scene.setup_after setup p.before)

section Quiet

variable (quiet : setup.Quiet)

include quiet

theorem fair_bind : p.bind.scene.Fair :=
  (Scene.fair_after quiet p.before).leads (p.leads_bind Scene.chained_fairly
    (fun _ => Scene.closed_fairly _) fun depth => Scene.carried_fairly.fires_reactWithin depth)

/-- What the page answers when the clause is bound is told by what happened to the page before. -/
theorem plain_bind : p.bind.scene.page.plain = p.page := by
  have leads := p.leads_bind Scene.chained_sameAnswers Scene.closed_sameAnswers_binds
    Scene.fires_sameAnswers (Scene.orderly_after setup p.before)
  exact (leads.2.2 (Scene.fair_after quiet p.before).quiet).trans
    (Scene.plain_after (Scene.orderly_start setup) quiet p.before)

/-- Whether the clause misses its elements is told by the clause and by the page. -/
theorem isSome_handler? : p.handler?.isSome = true ↔
    ¬(Activation.ofName p.clause.2.name).Misses p.page p.clause.1 := by
  obtain ⟨selector, clause, -⟩ := p.bind_clause
  have fair := p.fair_bind quiet
  rw [← p.plain_bind quiet, ← selector, ← clause]
  refine ⟨fun is misses => ?_, fun finds => ?_⟩
  · rw [handler?, p.bind.handler?_of_misses fair misses] at is
    cases is
  · rw [handler?, (p.bind.bindsOne fair finds).1]
    rfl

/-- What a handler has to itself behind the bind of its clause is told by the clause and by the
page. -/
theorem solo_scene {h : Nat} (is : p.handler? = some h) :
    h < p.scene.handlers.length ∧
      p.scene.solo h = Solo.ofClause setup p.page p.options p.clause := by
  have fair := p.fair_bind quiet
  have fair' := p.bind.fair_after fair
  have bound := p.bind.lt_after fair.orderly is
  -- What is bound behind the clause leaves its handler alone.
  have spares := Scene.leads_behind_bind p.bind_mem (Scene.chained_sparesSolo h)
    (fun h' later => Scene.closed_sparesSolo_binds (by omega))
    (fun depth h' cause later => Scene.fires_sparesSolo depth (by omega) cause)
    (Scene.closed_sparesSolo_rebinds h)
  obtain ⟨-, later, spared⟩ := spares fair'.orderly
  obtain ⟨selector, clause, options⟩ := p.bind_clause
  rw [scene, Scene.after_append]
  refine ⟨Nat.lt_of_lt_of_le bound later.length_handlers, ((spared fair').2 bound).trans ?_⟩
  rw [p.bind.solo_after fair is, p.setup_bind, p.plain_bind quiet, options, selector, clause]

/-- Whatever else happens, what a handler has to itself is moved by what happens to it alone. -/
theorem solo_rest {h : Nat} (is : p.handler? = some h) (rest : List Step) :
    h < (p.scene.after rest).handlers.length ∧ (p.scene.after rest).solo h =
      (p.scene.touchesIn h rest).foldl Solo.touch
        (Solo.ofClause setup p.page p.options p.clause) := by
  obtain ⟨bound, own⟩ := p.solo_scene quiet is
  have fair : p.scene.Fair := Scene.fair_after quiet _
  have handsOut : p.scene.HandsOut := Scene.handsOut_after setup _
  have later := (fair.orderly.after rest).2
  rw [Scene.solo_after fair handsOut bound rest, own]
  exact ⟨Nat.lt_of_lt_of_le bound later.length_handlers, rfl⟩

end Quiet

/-- While effects take no page steps, clauses do not interfere. When two plays bind the same clause
at the same point, it gets a handler in both or in none, and up to any two points up to which the
same happened to the page, and the handlers were told to fire and were unbound alike, they have
fired alike, count alike and are pending alike. -/
theorem conduct_after (quiet : setup.Quiet) {p q : Staging setup} (alike : p.Alike q) :
    p.handler?.isSome = q.handler?.isSome ∧
      ∀ h h', p.handler? = some h → q.handler? = some h' → ∀ rest rest',
        p.scene.touchesIn h rest = q.scene.touchesIn h' rest' →
          ∃ c, (p.scene.after rest).conduct h = some c ∧
            (q.scene.after rest').conduct h' = some c := by
  have page : p.page = q.page := by rw [Staging.page, Staging.page, alike.pageSteps]
  constructor
  · rw [Bool.eq_iff_iff, p.isSome_handler? quiet, q.isSome_handler? quiet, page, alike.clause]
  · intro h h' is is' rest rest' touches
    obtain ⟨bound, own⟩ := p.solo_rest quiet is rest
    obtain ⟨-, own'⟩ := q.solo_rest quiet is' rest'
    -- Both start alike and are moved alike, so neither play leaves a trace on what is seen.
    have same : (p.scene.after rest).solo h = (q.scene.after rest').solo h' := by
      rw [own, own', touches, page, alike.options, alike.clause]
    have seen : (q.scene.after rest').conduct h' = (p.scene.after rest).conduct h := by
      rw [Scene.conduct_eq, Scene.conduct_eq, same]
    have known := List.getElem?_eq_getElem bound
    rw [seen]
    exact ⟨_, by rw [Scene.conduct, known]; rfl, by rw [Scene.conduct, known]; rfl⟩

/-- Buttons that fall when they are held, and are told an effect that is not known. -/
def heldButtons : Block := ⟨"button", [⟨"onhold.click", [⟨"text", "fall, vanish"⟩]⟩]⟩

/-- The buttons are bound alone. -/
def alone : Staging Scene.loadedButtons where
  before := [.page (.setMatches "link" [3])]
  route := .engine
  source := .blocks [heldButtons]
  place := ⟨0, by decide⟩

/-- The buttons are bound among others, of which one fired, and one is not handed out any more. -/
def amongOthers : Staging Scene.loadedButtons where
  before := [.bind .ownOptions (.blocks [⟨"button", [⟨"click", []⟩]⟩]), .fire 0 0,
    .page (.setMatches "link" [3]), .drop 0]
  route := .engine
  source := .blocks [⟨"link", [⟨"onhold.click", [⟨"text", "fall"⟩]⟩]⟩, heldButtons,
    ⟨"link", [⟨"window.onload", [⟨"text", "fall"⟩]⟩]⟩]
  place := ⟨1, by decide⟩

/-- A button is held until the buttons fall, they are told to fall again, and the other button is
pressed. -/
def heldAlone : List Step :=
  [.press 1, .page (.advance (.ofMillis 500)), .fire 0 0, .press 2]

/-- Meanwhile a link is given up, a window is told to fire, and the buttons are bound once more and
given up again. -/
def heldAmongOthers : List Step :=
  [.press 1, .unbindHandler 1 0, .page (.advance (.ofMillis 500)), .fire 1 2,
    .bind .engine (.blocks [heldButtons]), .fire 1 1, .press 2, .unbind 2]

/-- The buttons fall twice and are pending, alone and among others. -/
theorem conduct_after_heldButtons :
    alone.Alike amongOthers ∧ alone.handler? = some 0 ∧ amongOthers.handler? = some 2 ∧
      alone.scene.touchesIn 0 heldAlone = amongOthers.scene.touchesIn 2 heldAmongOthers ∧
      ∃ c : Conduct, c.firings.map (·.1) = [.held 0, .manual] ∧ c.pending = true ∧
        (alone.scene.after heldAlone).conduct 0 = some c ∧
        (amongOthers.scene.after heldAmongOthers).conduct 2 = some c := by
  have quiet : Scene.loadedButtons.Quiet :=
    Setup.quiet_of_entries (List.forall_mem_singleton.mpr rfl)
  have alike : alone.Alike amongOthers := ⟨by decide +kernel, by decide +kernel, by decide +kernel⟩
  have numbers : alone.handler? = some 0 ∧ amongOthers.handler? = some 2 := by decide +kernel
  have touches : alone.scene.touchesIn 0 heldAlone =
      amongOthers.scene.touchesIn 2 heldAmongOthers := by decide +kernel
  have seen : ((alone.scene.after heldAlone).conduct 0).map (fun c =>
      (c.firings.map (·.1), c.pending)) = some ([.held 0, .manual], true) := by decide +kernel
  obtain ⟨c, here, there⟩ :=
    (conduct_after quiet alike).2 0 2 numbers.1 numbers.2 heldAlone heldAmongOthers touches
  rw [here, Option.map_some, Option.some.injEq, Prod.mk.injEq] at seen
  exact ⟨alike, numbers.1, numbers.2, touches, c, seen.1, seen.2, here, there⟩

end Staging

end TriggerSheet
