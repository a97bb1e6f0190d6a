import Mathlib.Data.List.Nodup
import TriggerSheet.Scene.Page

/-!
# Registrations of a page

What a page holds registered: every registration keeps its number and what it stands for, and only
its activity changes. Numbers come from one counter, so a number names one registration of one
kind.

## Main definitions

* `Page.ids` — the numbers of all registrations
* `Page.Numbered` — no number is used twice, and the next one is new
* `Page.Extends` — a later page has the registrations of an earlier one, in their places

## Main results

* `Page.Numbered.timer_eq`, `Page.Numbered.listener_ne_timer` and their like — a number names one
  registration
* `Page.ids_listen`, `Page.ids_observe`, `Page.ids_schedule` — a new registration takes the next
  number
-/

namespace TriggerSheet

/-- A listener as it was registered. -/
def Listener.renewed (l : Listener) : Listener := { l with active := true }

/-- An observer as it was registered. -/
def Observer.renewed (o : Observer) : Observer := { o with active := true }

/-- A timer as it was registered. -/
def Timer.renewed (t : Timer) : Timer := { t with active := true }

namespace Page

variable {p q r : Page}

/-- The numbers of all registrations. -/
def ids (p : Page) : List Nat :=
  (p.listeners.map (·.id) ++ p.observers.map (·.id)) ++ p.timers.map (·.id)

/-- No number is used twice, and the next one is new. -/
structure Numbered (p : Page) : Prop where
  nodup : p.ids.Nodup
  lt : ∀ id ∈ p.ids, id < p.nextId

/-- The registrations of `p` stand first among those of `q`; their activity may differ. -/
structure Extends (p q : Page) : Prop where
  listeners : p.listeners.map Listener.renewed <+: q.listeners.map Listener.renewed
  observers : p.observers.map Observer.renewed <+: q.observers.map Observer.renewed
  timers : p.timers.map Timer.renewed <+: q.timers.map Timer.renewed

theorem Extends.refl (p : Page) : p.Extends p :=
  ⟨List.prefix_refl _, List.prefix_refl _, List.prefix_refl _⟩

theorem Extends.trans (first : p.Extends q) (second : q.Extends r) : p.Extends r :=
  ⟨first.listeners.trans second.listeners, first.observers.trans second.observers,
    first.timers.trans second.timers⟩

theorem Extends.listener (later : p.Extends q) {l : Listener} (mem : l ∈ p.listeners) :
    ∃ l' ∈ q.listeners, l'.renewed = l.renewed :=
  List.mem_map.mp (later.listeners.subset (List.mem_map_of_mem mem))

theorem Extends.observer (later : p.Extends q) {o : Observer} (mem : o ∈ p.observers) :
    ∃ o' ∈ q.observers, o'.renewed = o.renewed :=
  List.mem_map.mp (later.observers.subset (List.mem_map_of_mem mem))

theorem Extends.timer (later : p.Extends q) {t : Timer} (mem : t ∈ p.timers) :
    ∃ t' ∈ q.timers, t'.renewed = t.renewed :=
  List.mem_map.mp (later.timers.subset (List.mem_map_of_mem mem))

theorem id_listener_mem {l : Listener} (mem : l ∈ p.listeners) : l.id ∈ p.ids :=
  List.mem_append_left _ (List.mem_append_left _ (List.mem_map_of_mem mem))

theorem id_observer_mem {o : Observer} (mem : o ∈ p.observers) : o.id ∈ p.ids :=
  List.mem_append_left _ (List.mem_append_right _ (List.mem_map_of_mem mem))

theorem id_timer_mem {t : Timer} (mem : t ∈ p.timers) : t.id ∈ p.ids :=
  List.mem_append_right _ (List.mem_map_of_mem mem)

/-- A number belongs to a listener, to an observer or to a timer. -/
theorem mem_ids {id : Nat} : id ∈ p.ids ↔ (∃ l ∈ p.listeners, l.id = id) ∨
    (∃ o ∈ p.observers, o.id = id) ∨ ∃ t ∈ p.timers, t.id = id := by
  simp [ids]

/-- What was registered stays so. -/
theorem Extends.ids (later : p.Extends q) {id : Nat} (mem : id ∈ p.ids) : id ∈ q.ids := by
  rcases mem_ids.mp mem with ⟨l, there, rfl⟩ | ⟨o, there, rfl⟩ | ⟨t, there, rfl⟩
  · obtain ⟨l', there', same⟩ := later.listener there
    exact mem_ids.mpr (.inl ⟨l', there', congrArg (·.id) same⟩)
  · obtain ⟨o', there', same⟩ := later.observer there
    exact mem_ids.mpr (.inr (.inl ⟨o', there', congrArg (·.id) same⟩))
  · obtain ⟨t', there', same⟩ := later.timer there
    exact mem_ids.mpr (.inr (.inr ⟨t', there', congrArg (·.id) same⟩))

/-! ### A number names one registration -/

namespace Numbered

theorem timer_eq (numbered : p.Numbered) {t u : Timer} (ht : t ∈ p.timers) (hu : u ∈ p.timers)
    (same : t.id = u.id) : t = u := by
  have unique := (List.nodup_append.mp numbered.nodup).2.1
  exact List.inj_on_of_nodup_map unique ht hu same

theorem observer_eq (numbered : p.Numbered) {o u : Observer} (ho : o ∈ p.observers)
    (hu : u ∈ p.observers) (same : o.id = u.id) : o = u := by
  have unique := (List.nodup_append.mp (List.nodup_append.mp numbered.nodup).1).2.1
  exact List.inj_on_of_nodup_map unique ho hu same

theorem listener_eq (numbered : p.Numbered) {l u : Listener} (hl : l ∈ p.listeners)
    (hu : u ∈ p.listeners) (same : l.id = u.id) : l = u := by
  have unique := (List.nodup_append.mp (List.nodup_append.mp numbered.nodup).1).1
  exact List.inj_on_of_nodup_map unique hl hu same

theorem listener_ne_observer (numbered : p.Numbered) {l : Listener} {o : Observer}
    (hl : l ∈ p.listeners) (ho : o ∈ p.observers) : l.id ≠ o.id :=
  (List.nodup_append.mp (List.nodup_append.mp numbered.nodup).1).2.2 _
    (List.mem_map_of_mem hl) _ (List.mem_map_of_mem ho)

theorem listener_ne_timer (numbered : p.Numbered) {l : Listener} {t : Timer}
    (hl : l ∈ p.listeners) (ht : t ∈ p.timers) : l.id ≠ t.id :=
  (List.nodup_append.mp numbered.nodup).2.2 _
    (List.mem_append_left _ (List.mem_map_of_mem hl)) _ (List.mem_map_of_mem ht)

theorem observer_ne_timer (numbered : p.Numbered) {o : Observer} {t : Timer}
    (ho : o ∈ p.observers) (ht : t ∈ p.timers) : o.id ≠ t.id :=
  (List.nodup_append.mp numbered.nodup).2.2 _
    (List.mem_append_right _ (List.mem_map_of_mem ho)) _ (List.mem_map_of_mem ht)

theorem timer_lt (numbered : p.Numbered) {t : Timer} (ht : t ∈ p.timers) : t.id < p.nextId :=
  numbered.lt _ (id_timer_mem ht)

/-- Numbering depends on the numbers alone. -/
theorem of_ids_eq (numbered : p.Numbered) (ids : q.ids = p.ids) (next : q.nextId = p.nextId) :
    q.Numbered :=
  ⟨ids ▸ numbered.nodup, by rw [ids, next]; exact numbered.lt⟩

/-- One more registration takes the next number, whatever its kind. -/
theorem of_ids_perm (numbered : p.Numbered) (ids : q.ids.Perm (p.nextId :: p.ids))
    (next : q.nextId = p.nextId + 1) : q.Numbered := by
  have fresh : p.nextId ∉ p.ids := fun mem => Nat.lt_irrefl _ (numbered.lt _ mem)
  refine ⟨ids.nodup_iff.mpr (List.nodup_cons.mpr ⟨fresh, numbered.nodup⟩), fun id mem => ?_⟩
  rcases List.mem_cons.mp (ids.mem_iff.mp mem) with rfl | old
  · omega
  · have := numbered.lt _ old
    omega

end Numbered

/-! ### What the operations of a page do to its registrations -/

section Operations

variable (p) (id : Nat)

@[simp]
theorem ids_cancel : (p.cancel id).ids = p.ids := by
  simp [ids, cancel, Function.comp_def]

@[simp]
theorem ids_dropDue : p.dropDue.ids = p.ids := by
  simp [ids, dropDue, Function.comp_def]

theorem ids_listen (scope : Scope) (event : String) (callback : Callback) :
    (p.listen scope event callback).ids.Perm (p.nextId :: p.ids) := by
  simp only [ids, listen, List.map_append, List.map_cons, List.map_nil, List.append_assoc]
  exact List.perm_middle

theorem ids_observe (target : Target) (h e : Nat) :
    (p.observe target h e).ids.Perm (p.nextId :: p.ids) := by
  simp only [ids, observe, List.map_append, List.map_cons, List.map_nil, ← List.append_assoc]
  exact (List.perm_append_singleton _ _).append_right _

theorem ids_schedule (delay : Duration) (h e : Nat) :
    (p.schedule delay h e).ids.Perm (p.nextId :: p.ids) := by
  simp only [ids, schedule, List.map_append, List.map_cons, List.map_nil, ← List.append_assoc]
  exact (List.perm_append_singleton _ _)

@[simp]
theorem renewed_listeners_cancel :
    (p.cancel id).listeners.map Listener.renewed = p.listeners.map Listener.renewed := by
  rw [cancel, List.map_map]
  rfl

@[simp]
theorem renewed_observers_cancel :
    (p.cancel id).observers.map Observer.renewed = p.observers.map Observer.renewed := by
  rw [cancel, List.map_map]
  rfl

@[simp]
theorem renewed_timers_cancel :
    (p.cancel id).timers.map Timer.renewed = p.timers.map Timer.renewed := by
  rw [cancel, List.map_map]
  rfl

@[simp]
theorem renewed_timers_dropDue :
    p.dropDue.timers.map Timer.renewed = p.timers.map Timer.renewed := by
  rw [dropDue, List.map_map]
  rfl

end Operations

end Page

end TriggerSheet
