import Ls8.Execution
import Ls8.OpcodeTable
import Ls8.Trace.Recorder
import Ls8.Host

/-
  The processor in operation: ticks, interrupts and faults.

  One tick either enters an interrupt or fetches and executes one instruction.  A fault does not
  leave the tick: it is kept, reported once, and halts the processor.  Only a failure of the host's
  own leaves it.

  Everything that a tick does to the outside is listed in its `Turn`; recording into the trace and
  listing diagnostics happen whether or not anybody looks at them.
-/

namespace Ls8

/-- A processor with its instruction set and what is known about its run. -/
structure Cpu where
  processor : Processor
  table : OpcodeTable := .standard
  trace : Option Trace.Recorder := none
  /-- The fault that halted the processor. -/
  fault : Option Fault := none
  /-- How many ticks found the processor running. -/
  ticks : Nat := 0

/-- What a piece of work leaves: the processor, the host, what was done to the outside, and how it
    ended. -/
structure Performance (σ ε : Type) where
  processor : Processor
  host : σ
  effects : List Effect
  ending : Ending ε

/-- What a tick leaves: the processor, the host, what was done to the outside, and the host's
    failure if there was one. -/
structure Turn (σ ε : Type) where
  cpu : Cpu
  host : σ
  effects : List Effect
  failure : Option ε

/-- What a trace records of a processor. -/
def Processor.sample (p : Processor) : Trace.Sample where
  pc := p.pc
  registers := p.registers.toList.map fun b => (b.toNat : Int)
  equal := p.equal
  interruptsEnabled := p.interruptsEnabled
  halted := p.halted

/-! ## Requests of the host -/

variable {σ ε : Type}

/-- Serves the requests of a host one after the other, up to the first that ends the work. -/
def Processor.serve : List (Request ε) → Processor → Processor × List Effect × Ending ε
  | [], p => (p, [], .done)
  | .stopClock :: rest, p =>
    let (q, effects, ending) := serve rest p
    (q, .stopClock :: effects, ending)
  | .raise line :: rest, p =>
    match p.raise line with
    | .ok q => serve rest q
    | .error e => (p, [], .fault (.operand e))
  | .fault f :: _, p => (p, [], .fault f)
  | .fail reason :: _, p => (p, [], .failed reason)

/-- **Performs an operation,** handing its output to the host.  The processor moves on only after
    the host has taken the text. -/
def Processor.perform (outlet : Outlet σ ε) (op : Operation) (p : Processor) (host : σ) :
    Performance σ ε :=
  match execute op p with
  | .error f q => ⟨q, host, [], .fault f⟩
  | .ok .silent q => ⟨q, host, [], .done⟩
  | .ok (.text s width) q =>
    let (host, requests) := outlet.deliver host s
    let (q, effects, ending) := q.serve requests
    match ending with
    | .done => ⟨{ q with pc := q.pc + width }, host, .output s :: effects, .done⟩
    | ending => ⟨q, host, .output s :: effects, ending⟩

namespace Cpu

/-! ## The tick -/

/-- Records the present moment into the trace, if there is one. -/
def record (c : Cpu) (opcode : Option UInt8) (mnemonic note : String) : Cpu :=
  { c with trace := c.trace.map fun r =>
      r.record (.ofSample c.processor.sample (opcode.map fun b => (b.toNat : Int)) mnemonic note) }

/-- **Halts on a fault:** it is kept, recorded and reported, and the clock is stopped. -/
def halt (c : Cpu) (f : Fault) : Cpu × List Effect :=
  let c := { c with fault := some f, processor := { c.processor with halted := true } }
  (c.record (some c.processor.ir) "" "fault",
    [.diagnostic (.faulted c.processor.pc f), .report f.message, .stopClock])

/-- Enters the interrupt of a line. -/
def interrupt (c : Cpu) (line : Register) : Cpu × List Effect :=
  let c := c.record none "" ("irq" ++ Text.decimal (line : Nat))
  let entering := Effect.diagnostic (.entering line c.processor.pc c.processor.sp)
  match Processor.enterInterrupt line c.processor with
  | .ok _ p => ({ c with processor := p }, [entering])
  | .error f p =>
    let (c, effects) := { c with processor := p }.halt f
    (c, entering :: effects)

/-- Ends a tick with a fault, after what was done before it. -/
def faulted (c : Cpu) (host : σ) (before : List Effect) (f : Fault) : Turn σ ε :=
  let (c, effects) := c.halt f
  ⟨c, host, before ++ effects, none⟩

/-- Executes a decoded instruction. -/
def perform (outlet : Outlet σ ε) (i : Instruction) (c : Cpu) (host : σ) : Turn σ ε :=
  let fetched := Effect.diagnostic (.fetched c.processor.pc c.processor.ir i.mnemonic)
  let done := c.processor.perform outlet i.operation host
  let c := { c with processor := done.processor }
  let effects := fetched :: done.effects
  match done.ending with
  | .done =>
    if c.processor.halted then
      ⟨c, done.host, effects ++ [.diagnostic (.halted c.processor.pc c.ticks), .stopClock], none⟩
    else ⟨c, done.host, effects, none⟩
  | .fault f => c.faulted done.host effects f
  | .failed reason => ⟨c, done.host, effects, some reason⟩

/-- Fetches, decodes and executes one instruction. -/
def step (outlet : Outlet σ ε) (c : Cpu) (host : σ) : Turn σ ε :=
  match c.processor.memory.read c.processor.pc with
  | .error e => c.faulted host [] (.memory e)
  | .ok opcode =>
    let c := { c with processor := { c.processor with ir := opcode } }
    match c.table.get opcode with
    | none => (c.record (some opcode) "" "").faulted host [] (.illegalOpcode c.processor.pc opcode)
    | some i => (c.record (some opcode) i.mnemonic "").perform outlet i host

/-- **One tick:** an interrupt entry if one is due, else one instruction.  A halted processor does
    nothing. -/
def tick (outlet : Outlet σ ε) (c : Cpu) (host : σ) : Turn σ ε :=
  if c.processor.halted then ⟨c, host, [], none⟩
  else
    let c := { c with ticks := c.ticks + 1 }
    match c.processor.nextLine? with
    | some line =>
      let (c, effects) := c.interrupt line
      ⟨c, host, effects, none⟩
    | none => c.step outlet host

/-! ## What the host may do between ticks -/

/-- Writes a byte into memory. -/
def poke (c : Cpu) (a value : Int) : Except MemoryError Cpu :=
  (c.processor.memory.write a value).map fun m =>
    { c with processor := { c.processor with memory := m } }

/-- Requests an interrupt. -/
def raise (c : Cpu) (line : Int) : Except OperandError Cpu :=
  (c.processor.raise line).map fun p => { c with processor := p }

/-- The line that the timer requests. -/
def timerLine : Register := ⟨0, by decide⟩

/-- The timer requests its interrupt. -/
def timer (c : Cpu) : Cpu := { c with processor := c.processor.withPending timerLine }

/-- A halted processor does not tick. -/
theorem tick_of_halted (outlet : Outlet σ ε) {c : Cpu} (h : c.processor.halted = true)
    (host : σ) : c.tick outlet host = ⟨c, host, [], none⟩ := by
  rw [tick, if_pos h]

end Cpu

end Ls8
