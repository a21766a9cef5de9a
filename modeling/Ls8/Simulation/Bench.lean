import Ls8.Clock.Routine
import Ls8.Simulation.Host

/-
  A test bench for clocks.

  On the bench a source is known by its name.  When it fires, the firing is logged with the time,
  and then the actions are carried out that a script lists for this firing of this name.  Actions
  use the clock in every way there is, so firings nest.  After a given number of firings every
  further one stops the clock.
-/

namespace Ls8.Simulation

/-- What can be done to a clock on the bench. -/
inductive Action (τ : Type) where
  | add (name : String) (interval : τ)
  /-- Lets time pass. -/
  | advance (dt : τ)
  /-- Sets the time. -/
  | setTime (t : τ)
  | runPending
  | start
  | stop
  | fail (text : String)

/-- A line of the bench's log. -/
inductive LogLine (τ : Type) where
  /-- A source fired. -/
  | fired (name : String) (now : τ)
  /-- Pending events were fired, so many of them. -/
  | ran (count : Nat)

/-- The world around a clock on the bench. -/
structure Bench (τ : Type) where
  now : τ
  /-- How many firings there were, of all names. -/
  firings : Nat := 0
  /-- The names fired, the latest first. -/
  names : List String := []
  /-- How many sleeps there were. -/
  sleepCount : Nat := 0
  log : Array (LogLine τ) := #[]
  /-- The length of each sleep. -/
  sleeps : Array τ := #[]
  /-- What the clock reported. -/
  diagnostics : Array Diagnostic := #[]

/-- What happens on the bench. -/
structure BenchScript (τ : Type) where
  /-- The actions of a firing, by name and by its number among the firings of that name. -/
  actions : String → Nat → List (Action τ)
  /-- From this firing on every one stops the clock. -/
  maxFirings : Nat
  sleep : SleepScript τ String

variable {τ : Type}

/-- Work on a bench. -/
abbrev BenchRoutine (τ : Type) := Clock.Routine τ String (Bench τ) String

section
variable [Add τ]

/-- Carries out actions one after the other. -/
def carryOut : List (Action τ) → BenchRoutine τ
  | [] => .done
  | .add name interval :: rest => .add ⟨name, interval, name⟩ (carryOut rest)
  | .advance dt :: rest => .read fun w => .write { w with now := w.now + dt } (carryOut rest)
  | .setTime t :: rest => .read fun w => .write { w with now := t } (carryOut rest)
  | .runPending :: rest => .runPending fun n =>
    .read fun w => .write { w with log := w.log.push (.ran n) } (carryOut rest)
  | .start :: rest => .start (carryOut rest)
  | .stop :: rest => .stop (carryOut rest)
  | .fail text :: _ => .fail text

/-- The routine of a source: the firing is counted and logged, the clock stopped if there were
    enough firings, and the scripted actions carried out. -/
def fire (script : BenchScript τ) (name : String) : BenchRoutine τ :=
  .read fun w =>
    let names := name :: w.names
    let firings := w.firings + 1
    let actions := carryOut (script.actions name (names.count name))
    .write { w with names := names, firings := firings, log := w.log.push (.fired name w.now) }
      (if script.maxFirings ≤ firings then .stop actions else actions)

/-- Serves what a sleeping host asks for.  There is no processor on the bench, so interrupt requests
    go nowhere. -/
def serve : List (Request String) → BenchRoutine τ
  | [] => .done
  | .stopClock :: rest => .stop (serve rest)
  | .fail reason :: _ => .fail reason
  | .raise _ :: rest => serve rest
  | .fault _ :: rest => serve rest

/-- One sleep on the bench. -/
def benchSleep (script : BenchScript τ) (d : τ) : BenchRoutine τ :=
  .read fun w =>
    let n := w.sleepCount + 1
    .write { w with now := script.sleep.wake n w.now d, sleepCount := n, sleeps := w.sleeps.push d }
      (serve (script.sleep.requests n))

/-- **The bench as the host of a clock.** -/
def benchHost (script : BenchScript τ) : Clock.Host τ String (Bench τ) String where
  now := Bench.now
  fire := fire script
  sleep := benchSleep script
  told notice w := { w with diagnostics := w.diagnostics.push notice.diagnostic }

end

end Ls8.Simulation
