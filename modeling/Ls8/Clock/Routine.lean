import Ls8.Clock.Basic

/-
  Running a clock.

  What a source does when it fires, and what the outside does while the clock sleeps, may use the
  clock again: add sources, run what is pending, start or stop it, to any depth.  It may fail, and it
  may catch the failure of a part of itself and go on.  Such a piece of work is a `Routine`, a finite
  tree of requests to the clock and of accesses to the world `ω` outside it.

  A clock runs in a host, which tells the time, says what routine belongs to a command and to a
  sleep, and is told when the clock starts and stops.

  Firing may go on without end, so `pass` and `loop` take fuel, one unit for each firing and each
  turn of the loop; running out of it is an outcome of its own, which no routine catches.

  Everything that is done to the schedule can be put down in books that are kept in the world:
  `book` says how an entry changes it.  A clock of which no books are kept leaves the world alone
  (`unbooked`), and is the one that a program runs (`pass`, `loop`, `perform`).
-/

namespace Ls8.Clock

variable (τ κ ω ε : Type)

/-- Why work on a clock ended early. -/
inductive Interruption where
  /-- A source was refused. -/
  | refused (cause : IntervalError)
  /-- A routine failed. -/
  | failed (reason : ε)
  /-- The fuel ran out. -/
  | exhausted

/-- **A piece of work that may use the clock.** -/
inductive Routine where
  | done
  /-- Ends the work for a reason of its own. -/
  | fail (reason : ε)
  /-- Goes on as the state of the world says. -/
  | read (next : ω → Routine)
  /-- Replaces the state of the world. -/
  | write (world : ω) (next : Routine)
  /-- Adds a source. -/
  | add (source : Source τ κ) (next : Routine)
  /-- Fires what is due and goes on with the number of firings. -/
  | runPending (next : Nat → Routine)
  /-- Runs the clock until it is stopped. -/
  | start (next : Routine)
  | stop (next : Routine)
  /-- Does a part of the work, catches what `catches` says if that part fails, and goes on with what
      was caught. -/
  | attempt (part : Routine) (catches : Interruption ε → Bool)
    (next : Option (Interruption ε) → Routine)

/-- What a host is told. -/
inductive Notice where
  /-- The clock starts with so many sources. -/
  | started (sources : Nat)
  /-- The clock was stopped after so many completed firings. -/
  | stopped (dispatched : Nat)

/-- **The host of a clock.** -/
structure Host where
  /-- The time. -/
  now : ω → τ
  /-- What a command does. -/
  fire : κ → Routine τ κ ω ε
  /-- What happens during a sleep. -/
  sleep : τ → Routine τ κ ω ε
  /-- Takes a notice. -/
  told : Notice → ω → ω

/-- Work on a clock and the world around it. -/
abbrev Work := EStateM (Interruption ε) (Clock τ κ × ω)

/-- Something that is done to a schedule. -/
inductive Entry where
  /-- At this time a source was added, with its first event. -/
  | added (event : Event τ κ) (now : τ)
  /-- In a pass at this time the event was taken out and scheduled `again` as another one, and then
      its command was run. -/
  | taken (event : Event τ κ) (now : τ) (again : Event τ κ)
  /-- The clock was stopped and all events were dropped. -/
  | dropped
  deriving DecidableEq

variable {τ κ ω ε}

/-- No books are kept. -/
abbrev unbooked : Entry τ κ → ω → ω := fun _ w => w

/-- Whether an interruption is caught.  Fuel that has run out is no failure. -/
def Interruption.isCaught (catches : Interruption ε → Bool) : Interruption ε → Bool
  | .exhausted => false
  | i => catches i

/-- A part of some work, and what follows when it is done or its failure has been caught. -/
def attempted (catches : Interruption ε → Bool) (part : Work τ κ ω ε Unit)
    (next : Option (Interruption ε) → Work τ κ ω ε Unit) : Work τ κ ω ε Unit := fun s =>
  match part s with
  | .ok _ s => next none s
  | .error i s => if i.isCaught catches then next (some i) s else .error i s

variable [Add τ] [Zero τ] [LE τ] [LT τ] [DecidableLE τ] [DecidableLT τ]

/-- The event of a source that is added. -/
def firstEvent (c : Clock τ κ) (source : Source τ κ) (now : τ) : Event τ κ :=
  ⟨now + source.interval, c.sequence, source⟩

/-- The event that takes the place of one that is due. -/
def nextEvent (c : Clock τ κ) (e : Event τ κ) (now : τ) : Event τ κ :=
  ⟨nextDue e now, c.sequence, e.source⟩

/-- Runs a routine and keeps books, given how to fire what is due and how to run the clock. -/
def Routine.runWith (book : Entry τ κ → ω → ω) (host : Host τ κ ω ε) (pending : Work τ κ ω ε Nat)
    (started : Work τ κ ω ε Unit) : Routine τ κ ω ε → Work τ κ ω ε Unit
  | .done => pure ()
  | .fail reason => throw (.failed reason)
  | .read next => fun (c, w) => (next w).runWith book host pending started (c, w)
  | .write w next => fun (c, _) => next.runWith book host pending started (c, w)
  | .add source next => fun (c, w) =>
    match c.add (host.now w) source with
    | .ok d => next.runWith book host pending started
        (d, book (.added (c.firstEvent source (host.now w)) (host.now w)) w)
    | .error e => .error (.refused e) (c, w)
  | .runPending next => do
    let n ← pending
    (next n).runWith book host pending started
  | .start next => do
    started
    next.runWith book host pending started
  | .stop next => fun (c, w) =>
    next.runWith book host pending started
      (c.stop, host.told (.stopped c.dispatched) (book .dropped w))
  | .attempt part catches next =>
    attempted catches (part.runWith book host pending started) fun caught =>
      (next caught).runWith book host pending started

variable [Sub τ]

/-- Starts a clock that is not running, and marks it as not running afterwards, however the loop
    ended. -/
def startWith (host : Host τ κ ω ε) (loop : Work τ κ ω ε Unit) : Work τ κ ω ε Unit := fun (c, w) =>
  if c.running then .ok () (c, w)
  else
    match loop ({ c with running := true }, host.told (.started c.events.size) w) with
    | .ok _ (c, w) => .ok () ({ c with running := false }, w)
    | .error i (c, w) => .error i ({ c with running := false }, w)

mutual

/-- Fires what is due at `now`, one event after the other, and counts the firings on from `fired`.
    The next firing of a source is scheduled before its command is run. -/
def passWith (book : Entry τ κ → ω → ω) (host : Host τ κ ω ε) : Nat → τ → Nat → Work τ κ ω ε Nat
  | 0, _, _ => throw .exhausted
  | fuel + 1, now, fired => fun (c, w) =>
    match c.events.pop? Event.before with
    | none => .ok fired (c, w)
    | some (e, rest) =>
      if e.due ≤ now then
        let pending : Work τ κ ω ε Nat := fun s => passWith book host fuel (host.now s.2) 0 s
        let routine := host.fire e.source.command
        match routine.runWith book host pending (startWith host (loopWith book host fuel))
            (c.reschedule e rest now, book (.taken e now (c.nextEvent e now)) w) with
        | .ok _ (c, w) => passWith book host fuel now (fired + 1) (c.countFiring, w)
        | .error i s => .error i s
      else .ok fired (c, w)

/-- Fires what is due and sleeps until the next event, as long as the clock is running and has
    events. -/
def loopWith (book : Entry τ κ → ω → ω) (host : Host τ κ ω ε) : Nat → Work τ κ ω ε Unit
  | 0 => throw .exhausted
  | fuel + 1 => fun (c, w) =>
    if c.running && !c.events.isEmpty then
      match passWith book host fuel (host.now w) 0 (c, w) with
      | .error i s => .error i s
      | .ok _ (c, w) =>
        match c.delay? (host.now w) with
        | none => .ok () (c, w)
        | some d =>
          if !c.running then .ok () (c, w)
          else if 0 < d then
            let pending : Work τ κ ω ε Nat := fun s => passWith book host fuel (host.now s.2) 0 s
            match (host.sleep d).runWith book host pending
                (startWith host (loopWith book host fuel)) (c, w) with
            | .ok _ s => loopWith book host fuel s
            | .error i s => .error i s
          else loopWith book host fuel (c, w)
    else .ok () (c, w)

end

/-- Fires what is due now and returns how many firings there were. -/
def runPendingWith (book : Entry τ κ → ω → ω) (host : Host τ κ ω ε) (fuel : Nat) :
    Work τ κ ω ε Nat :=
  fun s => passWith book host fuel (host.now s.2) 0 s

/-- Runs the clock until it is stopped or has no sources. -/
def startingWith (book : Entry τ κ → ω → ω) (host : Host τ κ ω ε) (fuel : Nat) :
    Work τ κ ω ε Unit :=
  startWith host (loopWith book host fuel)

/-! ## Without books -/

/-- Runs a routine, given how to fire what is due and how to run the clock. -/
def Routine.run (host : Host τ κ ω ε) (pending : Work τ κ ω ε Nat) (started : Work τ κ ω ε Unit)
    (routine : Routine τ κ ω ε) : Work τ κ ω ε Unit :=
  routine.runWith unbooked host pending started

/-- Fires what is due at `now` and counts the firings on from `fired`. -/
def pass (host : Host τ κ ω ε) (fuel : Nat) (now : τ) (fired : Nat) : Work τ κ ω ε Nat :=
  passWith unbooked host fuel now fired

/-- Fires what is due and sleeps, in turn. -/
def loop (host : Host τ κ ω ε) (fuel : Nat) : Work τ κ ω ε Unit := loopWith unbooked host fuel

/-- Fires what is due now and returns how many firings there were. -/
def runPending (host : Host τ κ ω ε) (fuel : Nat) : Work τ κ ω ε Nat :=
  fun s => pass host fuel (host.now s.2) 0 s

/-- **Runs the clock** until it is stopped or has no sources. -/
def start (host : Host τ κ ω ε) (fuel : Nat) : Work τ κ ω ε Unit :=
  startWith host (loop host fuel)

/-- Runs a routine from outside. -/
def perform (host : Host τ κ ω ε) (fuel : Nat) (routine : Routine τ κ ω ε) : Work τ κ ω ε Unit :=
  routine.run host (runPending host fuel) (start host fuel)

end Ls8.Clock
