import TriggerSheet.Text.Blank
import TriggerSheet.Text.TopLevel

/-!
# Argument slots

The argument of an effect is a list of slots between top-level commas. Slots are positional: an
empty one keeps its place and stands for the default of that slot, and so does a missing one.

## Main definitions

* `Slots.ofText` — the slots of an argument
* `Slots.at?` — a slot that is there and not empty
-/

namespace TriggerSheet

/-- The slots of an argument, each trimmed. -/
abbrev Slots := List String

namespace Slots

/-- The slots of an argument; a missing or blank argument has none. -/
def ofText (argument : Option String) : Slots :=
  match argument with
  | none => []
  | some text =>
    if text.toList.all Text.isBlank then []
    else (Text.topLevelPieces text.toList).map fun piece => String.ofList (Text.trim piece)

/-- The slot at a position, when there is one and it is not empty. -/
def at? (slots : Slots) (i : Nat) : Option String :=
  slots[i]?.filter fun slot => !slot.isEmpty

end Slots

end TriggerSheet
