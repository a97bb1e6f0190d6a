/-!
# Names of page events

The events that activations listen for, under the names that pages use.

## Main definitions

* `EventName.all` — the names, in order
-/

namespace TriggerSheet.EventName

def click : String := "click"

def doubleClick : String := "dblclick"

def pressStart : String := "mousedown"

def pressEnd : String := "mouseup"

def pressLeave : String := "mouseleave"

def pointerEnter : String := "mouseenter"

def load : String := "load"

def contentReady : String := "DOMContentLoaded"

/-- The names, in order. -/
def all : List String :=
  [click, doubleClick, pressStart, pressEnd, pressLeave, pointerEnter, load, contentReady]

end TriggerSheet.EventName
