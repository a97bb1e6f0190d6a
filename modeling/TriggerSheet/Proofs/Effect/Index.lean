import Mathlib.Data.String.Basic
import TriggerSheet.Effect.Category

/-!
# The inverted index of a table

An index is built row by row and name by name, and holds a category for an effect exactly if a row
of that category lists the effect, however often names and categories occur. So the index and the
table give the same answers.

## Main definitions

* `CategoryTable.Lists` — a row of a category lists an effect
* `Category.listed` — the effects of the table

## Main results

* `CategoryIndex.contains_ofTable` — the index of a table holds what its rows list
* `Category.isEmpty_accepting` — an effect that no category accepts is not in the table
* `Category.ofProperty?_eq_some_iff` — the category that a property name stands for
* `acceptsEffect_iff_mem_effects` — what may run for a property is what its category lists
-/

namespace TriggerSheet

namespace CategorySet

variable (a b : CategorySet) (c d : Category)

@[simp]
theorem contains_empty : empty.contains c = false := by cases c <;> rfl

@[simp]
theorem contains_single : (single d).contains c = decide (d = c) := by
  cases c <;> cases d <;> rfl

@[simp]
theorem contains_union : (a.union b).contains c = (a.contains c || b.contains c) :=
  BitVec.getLsbD_or

/-- A set without members is the empty one. -/
theorem isEmpty_iff : a.isEmpty = true ↔ a = empty := by
  rw [isEmpty, beq_iff_eq]
  constructor
  · exact congrArg CategorySet.mk
  · exact congrArg CategorySet.bits

/-- A set is empty if it contains no category. -/
theorem eq_empty_iff : a = empty ↔ ∀ c, a.contains c = false := by
  constructor
  · rintro rfl c
    exact contains_empty c
  · intro none
    -- Each of the five bits is that of a category.
    have bits : ∀ i : Fin 5, ∃ c ∈ Category.all, c.bit = i := by decide
    refine congrArg CategorySet.mk (BitVec.eq_of_getLsbD_eq fun i lt => ?_)
    obtain ⟨c, -, is⟩ := bits ⟨i, lt⟩
    have unset := none c
    rw [contains, is] at unset
    exact unset.trans BitVec.getLsbD_zero.symm

end CategorySet

/-- A row of a category lists an effect. -/
def CategoryTable.Lists (table : CategoryTable) (c : Category) (effect : String) : Prop :=
  ∃ row ∈ table, row.1 = c ∧ effect ∈ row.2

namespace CategoryIndex

variable (index : CategoryIndex) (c d : Category) (name effect : String)

theorem lookup_filter_ne {name effect : String} (other : effect ≠ name)
    (entries : List (String × CategorySet)) :
    (entries.filter fun entry => entry.1 ≠ name).lookup effect = entries.lookup effect := by
  induction entries with
  | nil => rfl
  | cons entry rest ih =>
    by_cases own : entry.1 = name
    · have passed : (effect == entry.1) = false := by simpa [own] using other
      rw [List.filter_cons_of_neg (by simpa using own), ih, List.lookup_cons, passed]
    · rw [List.filter_cons_of_pos (by simpa using own), List.lookup_cons, List.lookup_cons, ih]

/-- One name more gets one category more, and nothing else changes. -/
theorem contains_lookup_add :
    ((add d index name).lookup effect).contains c =
      ((index.lookup effect).contains c || decide (d = c ∧ effect = name)) := by
  by_cases own : effect = name
  · subst own
    simp [add, lookup]
  · have missed : (effect == name) = false := by simpa using own
    rw [add, lookup, List.lookup_cons, missed]
    simp only [lookup_filter_ne own, own, and_false, decide_false, Bool.or_false]
    rfl

/-- The names of a row. -/
theorem contains_lookup_row (names : List String) :
    ((names.foldl (add d) index).lookup effect).contains c =
      ((index.lookup effect).contains c || decide (d = c ∧ effect ∈ names)) := by
  induction names generalizing index with
  | nil => simp
  | cons name rest ih =>
    rw [List.foldl_cons, ih, contains_lookup_add, Bool.or_assoc]
    congr 1
    by_cases own : effect = name
    · by_cases same : d = c <;> simp [own, same]
    · simp [own]

/-- The index of a table holds a category for an effect if a row of the category lists it. -/
theorem contains_ofTable (table : CategoryTable) :
    ((ofTable table).lookup effect).contains c = true ↔ table.Lists c effect := by
  -- Rows are added to whatever is there.
  have rows (index : CategoryIndex) :
      ((table.foldl (fun index row => row.2.foldl (add row.1) index) index).lookup
        effect).contains c = true ↔
      (index.lookup effect).contains c = true ∨ table.Lists c effect := by
    induction table generalizing index with
    | nil => simp [CategoryTable.Lists]
    | cons row rest ih =>
      rw [List.foldl_cons, ih, contains_lookup_row]
      simp [CategoryTable.Lists, or_assoc]
  have none : (empty.lookup effect).contains c = false := CategorySet.contains_empty c
  rw [ofTable, rows, none]
  simp

/-- An effect that no row lists has no category in the index. -/
theorem lookup_ofTable_eq_empty (table : CategoryTable) :
    (ofTable table).lookup effect = .empty ↔ ∀ row ∈ table, effect ∉ row.2 := by
  rw [CategorySet.eq_empty_iff]
  constructor
  · intro none row mem lists
    have held := (contains_ofTable row.1 effect table).mpr ⟨row, mem, rfl, lists⟩
    rw [none] at held
    cases held
  · intro unlisted c
    refine Bool.eq_false_iff.mpr fun held => ?_
    obtain ⟨row, mem, -, lists⟩ := (contains_ofTable c effect table).mp held
    exact unlisted row mem lists

end CategoryIndex

namespace Category

/-- The effects of the table. -/
def listed : List String := table.flatMap Prod.snd

theorem accepts_iff (c : Category) (effect : String) :
    c.accepts effect = true ↔ table.Lists c effect :=
  CategoryIndex.contains_ofTable c effect table

/-- An effect that no category accepts is not in the table. -/
theorem isEmpty_accepting (effect : String) :
    (accepting effect).isEmpty = true ↔ effect ∉ listed := by
  rw [CategorySet.isEmpty_iff, accepting, index, CategoryIndex.lookup_ofTable_eq_empty, listed,
    List.mem_flatMap]
  simp

/-- Each category has one row in the table. -/
theorem lists_iff_mem_effects (c : Category) (effect : String) :
    table.Lists c effect ↔ effect ∈ c.effects := by
  have rows : ∀ row ∈ table, row.1.effects = row.2 := by decide
  have own : (c, c.effects) ∈ table := by cases c <;> decide
  constructor
  · rintro ⟨row, mem, rfl, lists⟩
    rwa [rows row mem]
  · intro lists
    exact ⟨(c, c.effects), own, rfl, lists⟩

/-- A property name stands for the category whose name it is, outer blanks and letter case apart. -/
theorem ofProperty?_eq_some_iff (name : String) (c : Category) :
    ofProperty? name = some c ↔ c.property.toList = Text.lower (Text.trim name.toList) := by
  rw [@eq_comm _ c.property.toList, ← String.ofList_eq, ofProperty?]
  generalize String.ofList (Text.lower (Text.trim name.toList)) = word
  constructor
  · intro read
    split at read <;> cases read <;> rfl
  · rintro rfl
    cases c <;> rfl

end Category

/-- What is accepted for a property is accepted by its category. -/
theorem acceptsEffect_iff (property effect : String) :
    acceptsEffect property effect = true ↔
      ∃ c, Category.ofProperty? property = some c ∧ c.accepts effect = true := by
  rw [acceptsEffect]
  cases Category.ofProperty? property <;> simp

/-- What is accepted for a property is in the table. -/
theorem mem_listed_of_acceptsEffect {property effect : String}
    (accepted : acceptsEffect property effect = true) : effect ∈ Category.listed := by
  obtain ⟨c, -, accepted⟩ := (acceptsEffect_iff property effect).mp accepted
  obtain ⟨row, mem, -, lists⟩ := (c.accepts_iff effect).mp accepted
  exact List.mem_flatMap.mpr ⟨row, mem, lists⟩

/-- The index of any table holds for an effect the categories whose rows list it, and none for an
effect that no row lists. So an effect may run for a property if the property is the name of a
category, outer blanks and letter case apart, and the table lists the effect for it. -/
theorem acceptsEffect_iff_mem_effects :
    (∀ (table : CategoryTable) (effect : String),
        (∀ c, ((CategoryIndex.ofTable table).lookup effect).contains c = true ↔
            ∃ row ∈ table, row.1 = c ∧ effect ∈ row.2) ∧
          ((CategoryIndex.ofTable table).lookup effect = .empty ↔
            ∀ row ∈ table, effect ∉ row.2)) ∧
      ∀ property effect, acceptsEffect property effect = true ↔
        ∃ c : Category, c.property.toList = Text.lower (Text.trim property.toList) ∧
          effect ∈ c.effects := by
  refine ⟨fun table effect => ⟨fun c => CategoryIndex.contains_ofTable c effect table,
    CategoryIndex.lookup_ofTable_eq_empty effect table⟩, fun property effect => ?_⟩
  rw [acceptsEffect_iff]
  refine exists_congr fun c => and_congr (Category.ofProperty?_eq_some_iff property c) ?_
  exact (c.accepts_iff effect).trans (c.lists_iff_mem_effects effect)

end TriggerSheet
