/-!
# Unreadable values

Reading a sheet and running it never fails; only the strict readers of single values do. Each
failure keeps the text as it was given.

## Main definitions

* `ValueError` — what could not be read
* `ValueError.message` — the text for people
-/

namespace TriggerSheet

/-- A text that is no value of its kind. -/
inductive ValueError where
  | invalidDuration (text : String)
  | invalidNumber (text : String)
  | invalidColor (text : String)
  | unknownDirection (text : String)
  deriving DecidableEq, Repr

/-- The text for people, with the offending text between single quotes. -/
def ValueError.message : ValueError → String
  | invalidDuration text => "invalid duration: '" ++ text ++ "'"
  | invalidNumber text => "invalid number: '" ++ text ++ "'"
  | invalidColor text => "invalid color: '" ++ text ++ "'"
  | unknownDirection text => "unknown direction: '" ++ text ++ "'"

end TriggerSheet
