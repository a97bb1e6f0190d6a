import TriggerSheet.Text.Ascii
import TriggerSheet.Text.Blank

/-!
# Property categories

Each property category accepts a fixed list of effects. The table of the categories is turned
round once into an index from effect names to sets of categories, and every question about an
effect is answered from the index. Property names compare without regard to letter case, effect
names exactly.

## Main definitions

* `Category` — the five categories, with their property names
* `CategorySet` — a set of categories, one bit each
* `Category.table`, `Category.effects` — the effects that each category accepts
* `CategoryIndex.ofTable` — the inverted index of a table
* `Category.accepting`, `Category.accepts`, `acceptsEffect` — the questions about an effect
-/

namespace TriggerSheet

/-- The categories of properties. -/
inductive Category where
  | text
  | color
  | backgroundColor
  | value
  | request
  deriving DecidableEq, Repr

namespace Category

/-- The categories in the order of their bits. -/
def all : List Category := [text, color, backgroundColor, value, request]

/-- The name of the property. -/
def property : Category → String
  | text => "text"
  | color => "color"
  | backgroundColor => "background-color"
  | value => "value"
  | request => "request"

/-- The name of the bit. -/
def flagName : Category → String
  | text => "TEXT"
  | color => "COLOR"
  | backgroundColor => "BACKGROUND_COLOR"
  | value => "VALUE"
  | request => "REQUEST"

/-- The position of the bit. -/
def bit : Category → Fin 5
  | text => 0
  | color => 1
  | backgroundColor => 2
  | value => 3
  | request => 4

/-- The category that a property name stands for, outer blanks and letter case apart. -/
def ofProperty? (name : String) : Option Category :=
  match String.ofList (Text.lower (Text.trim name.toList)) with
  | "text" => some text
  | "color" => some color
  | "background-color" => some backgroundColor
  | "value" => some value
  | "request" => some request
  | _ => none

end Category

/-- A set of categories, one bit each. -/
structure CategorySet where
  bits : BitVec 5
  deriving DecidableEq, Repr

namespace CategorySet

/-- The set without members. -/
def empty : CategorySet := ⟨0⟩

/-- The set with one member. -/
def single (c : Category) : CategorySet := ⟨1#5 <<< c.bit.val⟩

/-- The members of either set. -/
def union (a b : CategorySet) : CategorySet := ⟨a.bits ||| b.bits⟩

/-- Whether a category is a member. -/
def contains (s : CategorySet) (c : Category) : Bool := s.bits.getLsbD c.bit.val

/-- Whether there are no members. -/
def isEmpty (s : CategorySet) : Bool := s.bits == 0

/-- The members in the order of their bits. -/
def toList (s : CategorySet) : List Category := Category.all.filter s.contains

end CategorySet

/-- The rows of a table: a category and the effects that it accepts. -/
abbrev CategoryTable := List (Category × List String)

/-- For each effect name the set of the categories that accept it. -/
structure CategoryIndex where
  entries : List (String × CategorySet)

namespace CategoryIndex

/-- The index without entries. -/
def empty : CategoryIndex := ⟨[]⟩

/-- The categories that accept an effect; none for a name without an entry. -/
def lookup (index : CategoryIndex) (effect : String) : CategorySet :=
  (index.entries.lookup effect).getD .empty

/-- The index in which `category` accepts `effect` too. -/
def add (category : Category) (index : CategoryIndex) (effect : String) : CategoryIndex :=
  let grown := (index.lookup effect).union (.single category)
  ⟨(effect, grown) :: index.entries.filter fun entry => entry.1 ≠ effect⟩

/-- The inverted index of a table, built row by row and name by name. -/
def ofTable (table : CategoryTable) : CategoryIndex :=
  table.foldl (fun index row => row.2.foldl (add row.1) index) empty

end CategoryIndex

namespace Category

/-- The effects on text. -/
def textEffects : List String :=
  ["fall", "rise", "slideIn", "slideOut", "fadeIn", "fadeOut", "pop", "implode", "shake", "shiver"]

/-- The effects on colors. -/
def colorEffects : List String := ["paint", "fadeColor", "chameleonCamo", "octopusCamo"]

/-- The effects that each category accepts. -/
def table : CategoryTable :=
  [(text, textEffects), (color, colorEffects), (backgroundColor, colorEffects),
    (value, ["searchValue"]), (request, ["callBack", "callDismiss"])]

/-- The effects that a category accepts, in the order of the table. -/
def effects (c : Category) : List String := (table.lookup c).getD []

/-- The inverted index of the table. -/
def index : CategoryIndex := CategoryIndex.ofTable table

/-- The categories that accept an effect. -/
def accepting (effect : String) : CategorySet := index.lookup effect

/-- Whether a category accepts an effect. -/
def accepts (c : Category) (effect : String) : Bool := (accepting effect).contains c

end Category

/-- Whether an effect may run for an action on a property; a property outside every category
accepts nothing. -/
def acceptsEffect (property effect : String) : Bool :=
  match Category.ofProperty? property with
  | some category => category.accepts effect
  | none => false

end TriggerSheet
