import Ls8.Diagnostic

/-
  The machine and its host.

  The host is whatever the machine runs in.  It takes the texts that the machine puts out, is told
  of errors and diagnostics, and lets time pass.  Its own state is of any type `σ`, and it may fail
  for reasons of its own, of any type `ε`.

  While the host takes a text or sleeps it may ask something of the machine (`Request`).  The
  machine in turn never acts on the host: it lists what it does as `Effect`s, in order.
-/

namespace Ls8

/-- What the machine does to the outside, in the order in which it happens. -/
inductive Effect where
  /-- A text is handed to the host. -/
  | output (text : String)
  /-- A fault is reported. -/
  | report (text : String)
  /-- The clock is stopped. -/
  | stopClock
  | diagnostic (d : Diagnostic)
  deriving DecidableEq, Repr

/-- What a host may ask for while it takes a text or sleeps. -/
inductive Request (ε : Type) where
  /-- Stop the clock. -/
  | stopClock
  /-- Request an interrupt. -/
  | raise (line : Int)
  /-- Stop with a fault of the machine's own kind. -/
  | fault (f : Fault)
  /-- Stop for a reason of the host's own. -/
  | fail (reason : ε)
  deriving DecidableEq, Repr

/-- **Where the texts of a machine go:** for each text, the next state of the host and its
    requests. -/
structure Outlet (σ ε : Type) where
  deliver : σ → String → σ × List (Request ε)

/-- A host that takes every text and asks for nothing. -/
def Outlet.silent (σ ε : Type) : Outlet σ ε := ⟨fun s _ => (s, [])⟩

/-- How work that involves the host ends. -/
inductive Ending (ε : Type) where
  | done
  | fault (f : Fault)
  /-- The host failed for a reason of its own. -/
  | failed (reason : ε)
  deriving DecidableEq, Repr

end Ls8
