import TriggerSheet.Effect.Call

/-!
# Sheets

A sheet is a list of blocks. A block gives a selector and the clauses for what it matches; a
clause gives a trigger and the actions that run when it fires; an action sets a property to a
value, which lists effect calls.

## Main definitions

* `Action`, `Clause`, `Block` — the parts of a sheet
* `Action.calls` — the effect calls of an action
* `Action.text`, `Clause.text`, `Block.text` — the written forms
-/

namespace TriggerSheet

/-- One property with its value. -/
structure Action where
  property : String
  value : String
  deriving DecidableEq, Repr

/-- A trigger name with the actions that run when it fires. -/
structure Clause where
  name : String
  actions : List Action
  deriving DecidableEq, Repr

/-- A selector with the clauses for what it matches. -/
structure Block where
  selector : String
  clauses : List Clause
  deriving DecidableEq, Repr

/-- The effect calls of an action, from left to right. -/
def Action.calls (a : Action) : List Call := Call.ofValue a.value

/-- The written form of an action. -/
def Action.text (a : Action) : String := a.property ++ ": " ++ a.value ++ ";"

/-- A name and, between braces, parts with a space in front of each. -/
def groupText (name : String) (parts : List String) : String :=
  name ++ " \x7b" ++ String.join (parts.map (" " ++ ·)) ++ " \x7d"

/-- The written form of a clause. -/
def Clause.text (c : Clause) : String := groupText c.name (c.actions.map Action.text)

/-- The written form of a block. -/
def Block.text (b : Block) : String := groupText b.selector (b.clauses.map Clause.text)

end TriggerSheet
