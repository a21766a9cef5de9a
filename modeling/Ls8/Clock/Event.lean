/-
  Sources and their events.

  An event says when a source fires next.  Events due at the same time fire in the order in which
  they were scheduled, which their sequence numbers record.
-/

namespace Ls8.Clock

/-- Something that fires again and again. -/
structure Source (τ κ : Type) where
  name : String
  /-- The time between two firings. -/
  interval : τ
  /-- What is done at a firing. -/
  command : κ
  deriving DecidableEq

/-- When a source fires next. -/
structure Event (τ κ : Type) where
  due : τ
  sequence : Nat
  source : Source τ κ
  deriving DecidableEq

variable {τ κ : Type} [LE τ] [LT τ] [DecidableLE τ] [DecidableLT τ]

/-- **The order of events:** by time, and at the same time by sequence number. -/
def Event.before (a b : Event τ κ) : Bool :=
  decide (a.due < b.due) ||
    (decide (a.due ≤ b.due) && decide (b.due ≤ a.due) && decide (a.sequence < b.sequence))

end Ls8.Clock
