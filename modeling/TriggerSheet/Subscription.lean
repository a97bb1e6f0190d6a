/-!
# Subscriptions

A subscription stands for something that was registered with a page, by its number, or for
nothing. Giving a subscription up without cancelling it leaves the registration alone.

## Main definitions

* `Subscription` — a registration, or nothing to release
* `Subscription.released` — what cancelling releases
* `Subscription.describe` — its text for developers
-/

namespace TriggerSheet

/-- A handle on a registration, or on nothing. -/
inductive Subscription where
  | idle
  | registered (id : Nat)
  deriving DecidableEq, Repr

namespace Subscription

/-- Whether there is something to release. -/
def isActive : Subscription → Bool
  | idle => false
  | registered _ => true

/-- The registrations that are released when the subscription is cancelled, or when it is given
up. -/
def released (s : Subscription) (cancel : Bool) : List Nat :=
  match s with
  | registered id => if cancel then [id] else []
  | idle => []

/-- The text for developers. -/
def describe (s : Subscription) : String :=
  "Subscription \x7b active: " ++ (if s.isActive then "true" else "false") ++ " \x7d"

end Subscription

end TriggerSheet
