import Ls8.Clock.Routine
import Ls8.Cpu
import Ls8.Program.Source

/-
  The machine: a processor on a clock.

  Two sources are added to the clock when the machine starts: one ticks the processor, the other
  requests the timer interrupt.  The machine runs until the processor halts or the host stops the
  clock.

  The world around the clock is the `Rig`: the processor, the state of the host and the list of
  everything the machine has done to the outside.  A tick is the routine that replaces the
  processor by its next state and then carries out the effects of its turn in order; stopping the
  clock is the only one of them that acts on the machine itself.
-/

namespace Ls8

/-- The host of a machine: it takes texts, tells the time, and may ask for something while it
    sleeps. -/
structure Environment (τ σ ε : Type) where
  output : Outlet σ ε
  now : σ → τ
  sleep : σ → τ → σ × List (Request ε)

/-- The periodic work of a machine. -/
inductive Beat where
  /-- The processor ticks. -/
  | tick
  /-- The timer requests its interrupt. -/
  | timer
  deriving DecidableEq, Repr

/-- The name of a source. -/
def Beat.name : Beat → String
  | .tick => "tick"
  | .timer => "timer"

/-- What a run fails with when neither the processor nor the clock is the cause. -/
inductive HostFailure (ε : Type) where
  /-- A request of the host was refused. -/
  | fault (f : Fault)
  /-- The host failed for a reason of its own. -/
  | host (reason : ε)
  deriving DecidableEq, Repr

/-- The world around the clock. -/
structure Rig (σ : Type) where
  cpu : Cpu
  host : σ
  /-- Everything done to the outside, the earliest first. -/
  effects : Array Effect := #[]

/-- A processor on a clock. -/
structure Machine (τ σ : Type) where
  rig : Rig σ
  clock : Clock τ Beat := {}
  tickInterval : τ
  timerInterval : τ

/-- What a notice of a clock says. -/
def Clock.Notice.diagnostic : Clock.Notice → Diagnostic
  | .started n => .clockStarted n
  | .stopped n => .clockStopped n

variable {τ σ ε : Type}

/-- The rig after one more effect. -/
def Rig.did (rig : Rig σ) (e : Effect) : Rig σ := { rig with effects := rig.effects.push e }

namespace Machine

/-- A machine with the given memory that keeps a trace in the given recorder, if there is one. -/
def ofMemory (memory : Memory) (tickInterval timerInterval : τ) (trace : Option Trace.Recorder)
    (host : σ) : Machine τ σ where
  rig := {
    cpu := { processor := { memory := memory }, trace := trace }
    host := host }
  tickInterval := tickInterval
  timerInterval := timerInterval

/-- Why a machine cannot be assembled. -/
inductive AssemblyError where
  | memory (e : MemoryError)
  | trace (e : Trace.CapacityError)
  deriving DecidableEq, Repr

/-- **Assembles a machine** with so many bytes of memory from address zero; a trace is kept only for
    a positive capacity. -/
def assemble (memorySize : Int) (tickInterval timerInterval : τ) (traceCapacity : Int) (host : σ) :
    Except AssemblyError (Machine τ σ) := do
  let memory ← (Memory.create 0 memorySize).mapError .memory
  let trace ← (Trace.Recorder.createIfPositive traceCapacity).mapError .trace
  return ofMemory memory tickInterval timerInterval trace host

/-! ## Routines -/

/-- Work of a machine on its clock. -/
abbrev Task (τ σ ε : Type) := Clock.Routine τ Beat (Rig σ) (HostFailure ε)

/-- Carries out the effects of a turn in order, then ends with the host's failure if there is
    one. -/
def carryOut (failure : Option ε) : List Effect → Task τ σ ε
  | [] =>
    match failure with
    | none => .done
    | some reason => .fail (.host reason)
  | .stopClock :: rest => .stop (carryOut failure rest)
  | e :: rest => .read fun rig => .write (rig.did e) (carryOut failure rest)

/-- One tick of the processor. -/
def tick (env : Environment τ σ ε) : Task τ σ ε :=
  .read fun rig =>
    let turn := rig.cpu.tick env.output rig.host
    .write { rig with cpu := turn.cpu, host := turn.host } (carryOut turn.failure turn.effects)

/-- One firing of the timer. -/
def timer : Task τ σ ε := .read fun rig => .write { rig with cpu := rig.cpu.timer } .done

/-- The routine of each source. -/
def beat (env : Environment τ σ ε) : Beat → Task τ σ ε
  | .tick => tick env
  | .timer => timer

/-- Serves the requests that a host makes while it sleeps. -/
def serve : List (Request ε) → Task τ σ ε
  | [] => .done
  | .stopClock :: rest => .stop (serve rest)
  | .raise line :: rest => .read fun rig =>
    match rig.cpu.raise line with
    | .ok cpu => .write { rig with cpu := cpu } (serve rest)
    | .error e => .fail (.fault (.operand e))
  | .fault f :: _ => .fail (.fault f)
  | .fail reason :: _ => .fail (.host reason)

/-- One sleep. -/
def sleep (env : Environment τ σ ε) (d : τ) : Task τ σ ε :=
  .read fun rig =>
    let (host, requests) := env.sleep rig.host d
    .write { rig with host := host } (serve requests)

/-- A machine's environment as the host of its clock. -/
def clockHost (env : Environment τ σ ε) : Clock.Host τ Beat (Rig σ) (HostFailure ε) where
  now rig := env.now rig.host
  fire := beat env
  sleep := sleep env
  told notice rig := rig.did (.diagnostic notice.diagnostic)

/-- The source of a beat. -/
def source (b : Beat) (interval : τ) : Clock.Source τ Beat := ⟨b.name, interval, b⟩

/-- Adds both sources, the ticks first. -/
def addSources (tickInterval timerInterval : τ) (next : Task τ σ ε) : Task τ σ ε :=
  .add (source .tick tickInterval) (.add (source .timer timerInterval) next)

/-- **The run of a machine:** unless the processor has halted, both sources are added and the clock
    is started. -/
def runTask (tickInterval timerInterval : τ) : Task τ σ ε :=
  .read fun rig =>
    if rig.cpu.processor.halted then .done
    else addSources tickInterval timerInterval (.start .done)

/-! ## Acting on a machine -/

section Acting
variable [Add τ] [Sub τ] [Zero τ] [LE τ] [LT τ] [DecidableLE τ] [DecidableLT τ]

/-- How a task on a machine ends. -/
abbrev Interruption (ε : Type) := Clock.Interruption (HostFailure ε)

/-- Performs a task on a machine. -/
def perform (env : Environment τ σ ε) (fuel : Nat) (task : Task τ σ ε) (m : Machine τ σ) :
    Machine τ σ × Option (Interruption ε) :=
  match Clock.perform (clockHost env) fuel task (m.clock, m.rig) with
  | .ok _ (clock, rig) => ({ m with clock := clock, rig := rig }, none)
  | .error i (clock, rig) => ({ m with clock := clock, rig := rig }, some i)

/-- **Runs a machine.** -/
def run (env : Environment τ σ ε) (fuel : Nat) (m : Machine τ σ) :
    Machine τ σ × Option (Interruption ε) :=
  m.perform env fuel (runTask m.tickInterval m.timerInterval)

end Acting

/-- Replaces the processor of a machine. -/
def withCpu (m : Machine τ σ) (cpu : Cpu) : Machine τ σ :=
  { m with rig := { m.rig with cpu := cpu } }

/-- **Loads a program file** into a machine. -/
def load (m : Machine τ σ) (bytes : List UInt8) (name : String) :
    Machine τ σ × Except LoadError ProgramImage :=
  let cpu := m.rig.cpu
  let loading := loadFile bytes 0 name cpu.processor.memory
  let m := m.withCpu { cpu with processor := { cpu.processor with memory := loading.memory } }
  match loading.result with
  | .ok image => ({ m with rig := m.rig.did (.diagnostic image.report) }, .ok image)
  | .error e => (m, .error e)

/-- What an effect prints on the error stream. -/
def errorLines (cs : Categories) : Effect → List String
  | .report text => [text]
  | .diagnostic d => d.printed cs
  | .output _ | .stopClock => []

end Machine

end Ls8
