import Ls8.Proofs.Step
import Ls8.Cpu

/-
  What a tick can do.

  A tick of a running processor takes one of nine courses: it enters an interrupt or faults while
  entering one; it faults at the fetch or at the decoding; it executes an instruction, which faults,
  succeeds without output, or hands a text to the host, whose requests are then served and end with
  success, a fault or a failure of the host.  `tick_cases` lists them once, each with the whole turn
  that it leaves; whatever holds of every tick is proved by going through that list.
-/

namespace Ls8

variable {σ ε : Type} {outlet : Outlet σ ε} {c : Cpu} {host : σ}

/-- No interrupt is due exactly if they are disabled or no line is pending. -/
theorem Processor.nextLine?_eq_none_iff {p : Processor} :
    p.nextLine? = none ↔ p.interruptsEnabled = false ∨ p.pendingLines = 0 := by
  rw [nextLine?]
  cases p.interruptsEnabled with
  | false => simp
  | true => simp [lowestLine?_eq_none_iff]

theorem Processor.nextLine?_of_enabled {p : Processor} (h : p.interruptsEnabled = true) :
    p.nextLine? = lowestLine? p.pendingLines := by
  rw [nextLine?, h]
  rfl

namespace Cpu

/-! ## Replacing the processor and keeping records -/

/-- The same with another processor. -/
def withProcessor (c : Cpu) (p : Processor) : Cpu := { c with processor := p }

@[simp] theorem processor_withProcessor (c : Cpu) (p : Processor) :
    (c.withProcessor p).processor = p := rfl

/-! ## The courses of a tick -/

/-- The instruction at the program counter, if there is one. -/
def instruction? (c : Cpu) : Option Instruction :=
  c.processor.memory.get? c.processor.pc >>= c.table.get

theorem instruction?_eq_some_iff {i : Instruction} : c.instruction? = some i ↔
    ∃ opcode, c.processor.memory.get? c.processor.pc = some opcode ∧ c.table.get opcode = some i :=
  Option.bind_eq_some_iff

/-- The next tick enters the interrupt of a line. -/
def Enters (c : Cpu) (line : Register) : Prop :=
  c.processor.halted = false ∧ c.processor.nextLine? = some line

/-- The next tick executes an operation. -/
def Executes (c : Cpu) (op : Operation) : Prop :=
  c.processor.halted = false ∧ c.processor.nextLine? = none ∧
    c.instruction?.map (·.operation) = some op

instance (c : Cpu) (line : Register) : Decidable (c.Enters line) := instDecidableAnd

instance (c : Cpu) (op : Operation) : Decidable (c.Executes op) := instDecidableAnd

/-- The processor once a tick has been counted. -/
def counted (c : Cpu) : Cpu := { c with ticks := c.ticks + 1 }

/-- The processor at the entry of an interrupt. -/
def entering (c : Cpu) (line : Register) : Cpu :=
  c.counted.record none "" ("irq" ++ Text.decimal (line : Nat))

/-- The processor with a fetched byte. -/
def fetching (c : Cpu) (opcode : UInt8) (mnemonic : String) : Cpu :=
  (c.counted.withProcessor { c.processor with ir := opcode }).record (some opcode) mnemonic ""

/-- The end of a tick whose instruction succeeded. -/
def completed (c : Cpu) (host : σ) (effects : List Effect) : Turn σ ε :=
  if c.processor.halted then
    ⟨c, host, effects ++ [.diagnostic (.halted c.processor.pc c.ticks), .stopClock], none⟩
  else ⟨c, host, effects, none⟩

/-- What is told of an interrupt that is entered. -/
def entryNotice (c : Cpu) (line : Register) : Effect :=
  .diagnostic (.entering line c.processor.pc c.processor.sp)

section Projections
variable (effects : List Effect) (f : Fault)

@[simp] theorem processor_faulted : (c.faulted host effects f : Turn σ ε).cpu.processor =
    { c.processor with halted := true } := rfl

theorem effects_faulted : (c.faulted host effects f : Turn σ ε).effects =
    effects ++ [.diagnostic (.faulted c.processor.pc f), .report f.message, .stopClock] := rfl

@[simp] theorem cpu_completed : (c.completed host effects : Turn σ ε).cpu = c := by
  rw [completed]
  split <;> rfl

@[simp] theorem host_completed : (c.completed host effects : Turn σ ε).host = host := by
  rw [completed]
  split <;> rfl

@[simp] theorem failure_completed : (c.completed host effects : Turn σ ε).failure = none := by
  rw [completed]
  split <;> rfl

@[simp] theorem processor_fetching (opcode : UInt8) (mnemonic : String) :
    (c.fetching opcode mnemonic).processor = { c.processor with ir := opcode } := rfl

end Projections

theorem tick_of_nextLine? {line : Register} (hrun : c.processor.halted = false)
    (hline : c.processor.nextLine? = some line) :
    c.tick outlet host =
      ⟨(c.counted.interrupt line).1, host, (c.counted.interrupt line).2, none⟩ := by
  have h : c.counted.processor.nextLine? = some line := hline
  rw [tick, if_neg (by simp [hrun])]
  simp only [counted] at h ⊢
  rw [h]

theorem tick_of_idle (hrun : c.processor.halted = false) (hidle : c.processor.nextLine? = none) :
    c.tick outlet host = c.counted.step outlet host := by
  have h : c.counted.processor.nextLine? = none := hidle
  rw [tick, if_neg (by simp [hrun])]
  simp only [counted] at h ⊢
  rw [h]

/-- A tick that enters an interrupt. -/
theorem tick_of_entered {line : Register} {q : Processor} {u : Unit}
    (hrun : c.processor.halted = false) (hline : c.processor.nextLine? = some line)
    (hq : Processor.enterInterrupt line c.processor = .ok u q) :
    c.tick outlet host =
      ⟨(c.entering line).withProcessor q, host, [c.entryNotice line], none⟩ := by
  have h : Processor.enterInterrupt line (c.entering line).processor = .ok u q := hq
  rw [tick_of_nextLine? hrun hline, interrupt]
  simp only [entering] at h ⊢
  rw [h]
  rfl

/-- A tick that faults while it enters an interrupt. -/
theorem tick_of_entry_fault {line : Register} {q : Processor} {f : Fault}
    (hrun : c.processor.halted = false) (hline : c.processor.nextLine? = some line)
    (hq : Processor.enterInterrupt line c.processor = .error f q) :
    c.tick outlet host =
      ((c.entering line).withProcessor q).faulted host [c.entryNotice line] f := by
  have h : Processor.enterInterrupt line (c.entering line).processor = .error f q := hq
  rw [tick_of_nextLine? hrun hline, interrupt]
  simp only [entering] at h ⊢
  rw [h]
  rfl

/-- A tick that cannot fetch. -/
theorem step_of_not_covers (h : ¬ c.processor.memory.Covers c.processor.pc) :
    c.counted.step outlet host =
      c.counted.faulted host [] (.memory (c.processor.memory.missed c.processor.pc)) := by
  have hread : c.counted.processor.memory.read c.counted.processor.pc =
      .error (c.processor.memory.missed c.processor.pc) :=
    Memory.read_eq_error_iff.mpr ⟨h, rfl⟩
  rw [step, hread]

/-- A tick that fetches a byte which is no instruction. -/
theorem step_of_illegal {opcode : UInt8}
    (hbyte : c.processor.memory.get? c.processor.pc = some opcode)
    (hi : c.table.get opcode = none) :
    c.counted.step outlet host =
      (c.fetching opcode "").faulted host [] (.illegalOpcode c.processor.pc opcode) := by
  have hread : c.counted.processor.memory.read c.counted.processor.pc = .ok opcode :=
    Memory.read_eq_ok_iff.mpr hbyte
  have htable : c.counted.table.get opcode = none := hi
  rw [step, hread]
  simp only
  rw [htable]
  rfl

/-- A tick that fetches an instruction. -/
theorem step_of_instruction {opcode : UInt8} {i : Instruction}
    (hbyte : c.processor.memory.get? c.processor.pc = some opcode)
    (hi : c.table.get opcode = some i) :
    c.counted.step outlet host = (c.fetching opcode i.mnemonic).perform outlet i host := by
  have hread : c.counted.processor.memory.read c.counted.processor.pc = .ok opcode :=
    Memory.read_eq_ok_iff.mpr hbyte
  have htable : c.counted.table.get opcode = some i := hi
  rw [step, hread]
  simp only
  rw [htable]
  rfl

/-- A tick that executes an operation. -/
theorem Executes.tick_eq {op : Operation} (h : c.Executes op) (outlet : Outlet σ ε) (host : σ) :
    ∃ opcode i, i.operation = op ∧
      c.tick outlet host = (c.fetching opcode i.mnemonic).perform outlet i host := by
  obtain ⟨hrun, hidle, hop⟩ := h
  obtain ⟨i, hi, rfl⟩ := Option.map_eq_some_iff.mp hop
  obtain ⟨opcode, hbyte, hentry⟩ := instruction?_eq_some_iff.mp hi
  refine ⟨opcode, i, rfl, ?_⟩
  rw [tick_of_idle hrun hidle, step_of_instruction hbyte hentry]

/-! ## The courses of an instruction -/

variable {i : Instruction} {q r : Processor}

/-- What is told of an instruction that is executed. -/
def fetched (c : Cpu) (i : Instruction) : Effect :=
  .diagnostic (.fetched c.processor.pc c.processor.ir i.mnemonic)

theorem perform_of_error {f : Fault} (h : Processor.execute i.operation c.processor = .error f q) :
    c.perform outlet i host = (c.withProcessor q).faulted host [c.fetched i] f := by
  have hdone : c.processor.perform outlet i.operation host = ⟨q, host, [], .fault f⟩ := by
    rw [Processor.perform, h]
  simp only [perform, hdone]
  rfl

theorem perform_of_silent
    (h : Processor.execute i.operation c.processor = .ok .silent q) :
    c.perform outlet i host = (c.withProcessor q).completed host [c.fetched i] := by
  have hdone : c.processor.perform outlet i.operation host = ⟨q, host, [], .done⟩ := by
    rw [Processor.perform, h]
  simp only [perform, hdone]
  rfl

/-- An instruction that puts out a text ends as the host's requests do. -/
theorem perform_of_text {s : String} {width : Nat} {effects : List Effect} {ending : Ending ε}
    (h : Processor.execute i.operation c.processor = .ok (.text s width) q)
    (hserve : q.serve (outlet.deliver host s).2 = (r, effects, ending)) :
    c.perform outlet i host =
      match ending with
      | .done => (c.withProcessor { r with pc := r.pc + width }).completed
          (outlet.deliver host s).1 (c.fetched i :: .output s :: effects)
      | .fault f => (c.withProcessor r).faulted
          (outlet.deliver host s).1 (c.fetched i :: .output s :: effects) f
      | .failed reason => ⟨c.withProcessor r, (outlet.deliver host s).1,
          c.fetched i :: .output s :: effects, some reason⟩ := by
  rw [perform, Processor.perform, h]
  simp only [hserve]
  cases ending <;> rfl

/-! ## All courses at once -/

/-- **Whatever holds after each course of an instruction holds after the instruction.** -/
@[elab_as_elim] theorem perform_cases {P : Turn σ ε → Prop}
    (fault : ∀ f q, Processor.execute i.operation c.processor = .error f q →
      P ((c.withProcessor q).faulted host [c.fetched i] f))
    (silent : ∀ q, Processor.execute i.operation c.processor = .ok .silent q →
      P ((c.withProcessor q).completed host [c.fetched i]))
    (taken : ∀ s width q r effects,
      Processor.execute i.operation c.processor = .ok (.text s width) q →
      q.serve (outlet.deliver host s).2 = (r, effects, .done) →
      P ((c.withProcessor { r with pc := r.pc + width }).completed
        (outlet.deliver host s).1 (c.fetched i :: .output s :: effects)))
    (refused : ∀ s width q r effects f,
      Processor.execute i.operation c.processor = .ok (.text s width) q →
      q.serve (outlet.deliver host s).2 = (r, effects, .fault f) →
      P ((c.withProcessor r).faulted (outlet.deliver host s).1
        (c.fetched i :: .output s :: effects) f))
    (failed : ∀ s width q r effects reason,
      Processor.execute i.operation c.processor = .ok (.text s width) q →
      q.serve (outlet.deliver host s).2 = (r, effects, .failed reason) →
      P ⟨c.withProcessor r, (outlet.deliver host s).1,
        c.fetched i :: .output s :: effects, some reason⟩) :
    P (c.perform outlet i host) := by
  rcases h : Processor.execute i.operation c.processor with ⟨out, q⟩ | ⟨f, q⟩
  · cases out with
    | silent =>
      rw [perform_of_silent h]
      exact silent q h
    | text s width =>
      rcases hserve : q.serve (outlet.deliver host s).2 with ⟨r, effects, ending⟩
      rw [perform_of_text h hserve]
      cases ending with
      | done => exact taken s width q r effects h hserve
      | fault f => exact refused s width q r effects f h hserve
      | failed reason => exact failed s width q r effects reason h hserve
  · rw [perform_of_error h]
    exact fault f q h

/-- **Whatever holds after each course of a tick holds after the tick.** -/
@[elab_as_elim] theorem tick_cases {P : Turn σ ε → Prop}
    (halted : c.processor.halted = true → P ⟨c, host, [], none⟩)
    (entered : ∀ line q, c.processor.halted = false → c.processor.nextLine? = some line →
      Processor.enterInterrupt line c.processor = .ok () q →
      P ⟨(c.entering line).withProcessor q, host, [c.entryNotice line], none⟩)
    (entryFault : ∀ line f q, c.processor.halted = false → c.processor.nextLine? = some line →
      Processor.enterInterrupt line c.processor = .error f q →
      P (((c.entering line).withProcessor q).faulted host [c.entryNotice line] f))
    (unreadable : c.processor.halted = false → c.processor.nextLine? = none →
      ¬ c.processor.memory.Covers c.processor.pc →
      P (c.counted.faulted host [] (.memory (c.processor.memory.missed c.processor.pc))))
    (illegal : ∀ opcode, c.processor.halted = false → c.processor.nextLine? = none →
      c.processor.memory.get? c.processor.pc = some opcode → c.table.get opcode = none →
      P ((c.fetching opcode "").faulted host [] (.illegalOpcode c.processor.pc opcode)))
    (performed : ∀ opcode i, c.processor.halted = false → c.processor.nextLine? = none →
      c.processor.memory.get? c.processor.pc = some opcode → c.table.get opcode = some i →
      P ((c.fetching opcode i.mnemonic).perform outlet i host)) :
    P (c.tick outlet host) := by
  cases hrun : c.processor.halted with
  | true =>
    rw [tick_of_halted outlet hrun]
    exact halted hrun
  | false =>
    cases hline : c.processor.nextLine? with
    | some line =>
      rcases h : Processor.enterInterrupt line c.processor with ⟨⟨⟩, q⟩ | ⟨f, q⟩
      · rw [tick_of_entered hrun hline h]
        exact entered line q hrun hline h
      · rw [tick_of_entry_fault hrun hline h]
        exact entryFault line f q hrun hline h
    | none =>
      rw [tick_of_idle hrun hline]
      cases hbyte : c.processor.memory.get? c.processor.pc with
      | none =>
        have hcovers := Memory.get?_eq_none_iff.mp hbyte
        rw [step_of_not_covers hcovers]
        exact unreadable hrun hline hcovers
      | some opcode =>
        cases hi : c.table.get opcode with
        | none =>
          rw [step_of_illegal hbyte hi]
          exact illegal opcode hrun hline hbyte hi
        | some i =>
          rw [step_of_instruction hbyte hi]
          exact performed opcode i hrun hline hbyte hi

end Cpu

end Ls8
