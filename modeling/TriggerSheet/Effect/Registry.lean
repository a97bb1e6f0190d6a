import TriggerSheet.Text.Quoted

/-!
# Registries of effects

A registry keeps what each effect does under the effect's name. It is filled before anything is
bound; a second registration under a name replaces the first.

## Main definitions

* `Registry` — names with what is registered under them
* `Registry.register`, `Registry.lookup?` — writing and reading
* `Registry.names` — the names in ascending order
* `Registry.describe` — its text for developers
-/

namespace TriggerSheet

/-- What each effect does, under its name; no name occurs twice. -/
structure Registry (α : Type) where
  entries : List (String × α)

namespace Registry

variable {α : Type}

/-- The registry without effects. -/
def empty : Registry α := ⟨[]⟩

/-- The registry in which `effect` stands under `name`. -/
def register (r : Registry α) (name : String) (effect : α) : Registry α :=
  ⟨(name, effect) :: r.entries.filter fun entry => entry.1 ≠ name⟩

/-- The registry of a list of effects, a later one replacing an earlier one of its name. -/
def ofList (effects : List (String × α)) : Registry α :=
  effects.foldl (fun r entry => r.register entry.1 entry.2) empty

/-- What is registered under a name. -/
def lookup? (r : Registry α) (name : String) : Option α := r.entries.lookup name

/-- Whether something is registered under a name. -/
def contains (r : Registry α) (name : String) : Bool := (r.lookup? name).isSome

/-- The number of registered effects. -/
def size (r : Registry α) : Nat := r.entries.length

/-- Whether nothing is registered. -/
def isEmpty (r : Registry α) : Bool := r.entries.isEmpty

/-- The registered names in ascending order of their code points. -/
def names (r : Registry α) : List String :=
  (r.entries.map Prod.fst).mergeSort fun a b => decide (a ≤ b)

/-- The text for developers. -/
def describe (r : Registry α) : String :=
  "EffectRegistry \x7b effects: [" ++ ", ".intercalate (r.names.map Text.quoted) ++ "] \x7d"

end Registry

end TriggerSheet
