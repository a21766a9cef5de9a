import Ls8.Clock.Event
import Ls8.Clock.Heap.Contents
import Ls8.Text.Quoted

/-
  The clock: a schedule of periodic sources.

  Times and intervals are of any type with addition, subtraction and an order; the machine runs on
  binary doubles, and laws about exact times are stated over rationals.

  A source gets its first event when it is added (`events_schedule`), unless its interval is not
  positive, and then the clock stays as it is.
-/

namespace Ls8

/-- A schedule of periodic sources, and whether somebody is running it. -/
structure Clock (τ κ : Type) where
  /-- What is due. -/
  events : Clock.Heap (Clock.Event τ κ) := .empty
  /-- The number of the next event. -/
  sequence : Nat := 0
  running : Bool := false
  /-- How many firings were completed. -/
  dispatched : Nat := 0

namespace Clock

/-- A source was refused because its interval is not positive. -/
structure IntervalError where
  name : String
  deriving DecidableEq, Repr

/-- The text of a refused source. -/
def IntervalError.message (e : IntervalError) : String :=
  "interval for " ++ Text.quote e.name ++ " must be positive"

variable {τ κ : Type}

section Scheduling
variable [LE τ] [LT τ] [DecidableLE τ] [DecidableLT τ]

/-- Schedules the next firing of a source. -/
def schedule (c : Clock τ κ) (source : Source τ κ) (due : τ) : Clock τ κ :=
  { c with
    events := c.events.push Event.before ⟨due, c.sequence, source⟩
    sequence := c.sequence + 1 }

/-- **Adds a source** at a time; it fires first one interval later. -/
def add [Add τ] [Zero τ] (c : Clock τ κ) (now : τ) (source : Source τ κ) :
    Except IntervalError (Clock τ κ) :=
  if source.interval ≤ 0 then .error ⟨source.name⟩
  else .ok (c.schedule source (now + source.interval))

/-- When a source that was due fires next: one interval after it was due, or one interval from now
    if that has passed already, so that missed firings are dropped. -/
def nextDue [Add τ] (e : Event τ κ) (now : τ) : τ :=
  if e.due + e.source.interval ≤ now then now + e.source.interval else e.due + e.source.interval

omit [LT τ] [DecidableLT τ] in
/-- A source fires next one interval after it was due, or later. -/
theorem le_nextDue [Add τ] {e : Event τ κ} {now : τ}
    (hlate : e.due + e.source.interval ≤ now + e.source.interval)
    (hself : e.due + e.source.interval ≤ e.due + e.source.interval) :
    e.due + e.source.interval ≤ nextDue e now := by
  rw [nextDue]
  split
  · exact hlate
  · exact hself

omit [DecidableLT τ] in
/-- A source that was due does not fire again at once. -/
theorem lt_nextDue [Add τ] {e : Event τ κ} {now : τ} (hagain : now < now + e.source.interval)
    (hlater : ¬ e.due + e.source.interval ≤ now → now < e.due + e.source.interval) :
    now < nextDue e now := by
  rw [nextDue]
  split
  · exact hagain
  · rename_i hnot
    exact hlater hnot

/-- Schedules the next firing of the source of an event, given the other events. -/
def reschedule [Add τ] (c : Clock τ κ) (e : Event τ κ) (rest : Heap (Event τ κ)) (now : τ) :
    Clock τ κ :=
  { c with events := rest }.schedule e.source (nextDue e now)

/-- Scheduling adds one event. -/
theorem events_schedule (c : Clock τ κ) (source : Source τ κ) (due : τ) :
    (c.schedule source due).events.toList.Perm (⟨due, c.sequence, source⟩ :: c.events.toList) :=
  Heap.toList_push _ _ _

end Scheduling

/-- **Stops the clock** and drops every source. -/
def stop (c : Clock τ κ) : Clock τ κ := { c with running := false, events := .empty }

/-- Counts a completed firing. -/
def countFiring (c : Clock τ κ) : Clock τ κ := { c with dispatched := c.dispatched + 1 }

/-- The time until the next event. -/
def delay? [Sub τ] (c : Clock τ κ) (now : τ) : Option τ := c.events.top?.map (·.due - now)

end Clock

end Ls8
