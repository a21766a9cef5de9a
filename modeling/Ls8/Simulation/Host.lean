import Ls8.Machine

/-
  A host that keeps to a script, on virtual time.

  Virtual time passes only by sleeping: a sleep moves it on by exactly the time asked for, and by
  whatever the script adds to that sleep.  The script also says what the host asks for during its
  sleeps and when it is handed a text.  Texts are collected.
-/

namespace Ls8.Simulation

/-- What the host does when it is handed a text; texts are counted from one. -/
structure OutputScript (ε : Type) where
  /-- The text at which the output is closed, and why; it is not taken any more. -/
  failsAt : Option (Nat × ε) := none
  /-- The text after which the clock is stopped. -/
  stopsAt : Option Nat := none
  /-- The text after which an interrupt is requested. -/
  raisesAt : Option Nat := none
  /-- The line of that interrupt. -/
  line : Int := 0

/-- What the host does during its sleeps; sleeps are counted from one. -/
structure SleepScript (τ ε : Type) where
  /-- How much longer than asked for a sleep takes. -/
  extra : Nat → Option τ := fun _ => none
  /-- What the host asks for at the end of a sleep. -/
  requests : Nat → List (Request ε) := fun _ => []

/-- The state of a scripted host. -/
structure HostState (τ : Type) where
  now : τ
  /-- How many texts the host was handed. -/
  deliveries : Nat := 0
  /-- The texts it took. -/
  texts : Array String := #[]
  /-- How many sleeps there were since the script began. -/
  sleeps : Nat := 0

variable {τ ε : Type}

/-- Hands a text to a scripted host. -/
def OutputScript.deliver (script : OutputScript ε) (s : HostState τ) (text : String) :
    HostState τ × List (Request ε) :=
  let n := s.deliveries + 1
  let s := { s with deliveries := n }
  let taken := ({ s with texts := s.texts.push text },
    (if script.stopsAt = some n then [.stopClock] else []) ++
    (if script.raisesAt = some n then [.raise script.line] else []))
  match script.failsAt with
  | some (k, reason) => if k = n then (s, [.fail reason]) else taken
  | none => taken

/-- The outlet of a scripted host. -/
def OutputScript.outlet (script : OutputScript ε) : Outlet (HostState τ) ε :=
  ⟨script.deliver⟩

/-- The time after a sleep. -/
def SleepScript.wake [Add τ] (script : SleepScript τ ε) (n : Nat) (now d : τ) : τ :=
  match script.extra n with
  | some more => now + d + more
  | none => now + d

/-- Lets a scripted host sleep. -/
def SleepScript.sleep [Add τ] (script : SleepScript τ ε) (s : HostState τ) (d : τ) :
    HostState τ × List (Request ε) :=
  let n := s.sleeps + 1
  ({ s with sleeps := n, now := script.wake n s.now d }, script.requests n)

/-- **The environment that keeps to a script.** -/
def environment [Add τ] (output : OutputScript ε) (sleep : SleepScript τ ε) :
    Environment τ (HostState τ) ε where
  output := output.outlet
  now := HostState.now
  sleep := sleep.sleep

end Ls8.Simulation
