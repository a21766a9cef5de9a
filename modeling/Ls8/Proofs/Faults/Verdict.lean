import Ls8.Proofs.Faults.Checks
import Ls8.Proofs.Stopping

/-
  Exactly when a tick faults, and with which fault.

  1. **The checks of a tick** (`Cpu.checks`).  If an interrupt is due they are those of its entry.
     Else the byte at the program counter has to be there and to be an instruction, and the checks of
     its operation follow.  The verdict is the fault of the first of them that applies.

  2. **The host** can make a tick fault as well, by a request that cannot be met.  An outlet that only
     stops the clock and requests lines that there are (`Outlet.Calm`) does not: its requests are
     served to the end (`serve_of_harmless`).

  3. **How a tick ends** is put in one structure (`Turn.Judged`), since a fault shows in several
     places: it is kept, reported and halts the processor, and where there is none nothing of this
     happens, except that the halt instruction halts.  Each course of a tick has its own verdict, and
     in each the turn is judged by it.

  Main statement: on a full block every tick of a running processor ends as its verdict says
  (`tick_faults_exactly`).
-/

namespace Ls8

variable {σ ε : Type}

/-! ## Outlets that do not fail -/

/-- **An outlet that does not fail:** all its requests can be met. -/
def Outlet.Calm (outlet : Outlet σ ε) : Prop :=
  ∀ host s, ∀ r ∈ (outlet.deliver host s).2, r.Harmless

/-! ## The verdict of a tick -/

/-- The checks of an operation do not look at the byte fetched last. -/
theorem Processor.checks_withIr (p : Processor) (b : UInt8) (op : Operation) :
    Processor.checks { p with ir := b } op = p.checks op := by
  cases op <;> rfl

namespace Cpu

/-- **The checks of a tick,** in the order in which they are made. -/
def checks (c : Cpu) : List Check :=
  let p := c.processor
  if p.interruptsEnabled = true ∧ p.pendingLines ≠ 0 then p.entryChecks
  else
    let opcode := p.byteAt p.pc
    [⟨p.pc < 0 ∨ 255 < p.pc, .memory (.outside p.pc 0 255)⟩,
      ⟨(c.table.get opcode).isNone, .illegalOpcode p.pc opcode⟩] ++
    match c.table.get opcode with
    | none => []
    | some i => p.checks i.operation

end Cpu

/-- **A turn ends as a verdict says.**  With a fault it is kept, reported and halts the processor,
    and the clock is stopped; without one nothing is kept or reported, and the processor halts by its
    own instruction only.  The turn itself does not fail. -/
structure Turn.Judged (verdict : Option Fault) (c : Cpu) (turn : Turn σ ε) : Prop where
  returned : turn.failure = none
  fault : turn.cpu.fault = verdict.or c.fault
  reports : turn.effects.filterMap Effect.report? = (verdict.map Fault.message).toList
  halted : turn.cpu.processor.halted = true ↔ verdict.isSome ∨ c.Executes .hlt
  stops : turn.cpu.processor.halted = true → .stopClock ∈ turn.effects

namespace Cpu

variable {outlet : Outlet σ ε} {c d : Cpu} {host : σ} {effects : List Effect}

theorem checks_of_nextLine? {line : Register} (h : c.processor.nextLine? = some line) :
    c.checks = c.processor.entryChecks := by
  have hdue : ¬ (c.processor.interruptsEnabled = false ∨ c.processor.pendingLines = 0) := by
    rw [← Processor.nextLine?_eq_none_iff, h]
    exact nofun
  rw [not_or, Bool.not_eq_false] at hdue
  exact if_pos hdue

theorem checks_of_idle (h : c.processor.nextLine? = none) :
    c.checks = [⟨c.processor.pc < 0 ∨ 255 < c.processor.pc,
        .memory (.outside c.processor.pc 0 255)⟩,
      ⟨(c.table.get (c.processor.byteAt c.processor.pc)).isNone,
        .illegalOpcode c.processor.pc (c.processor.byteAt c.processor.pc)⟩] ++
      match c.table.get (c.processor.byteAt c.processor.pc) with
      | none => []
      | some i => c.processor.checks i.operation := by
  refine if_neg ?_
  rintro ⟨hon, hpending⟩
  rcases Processor.nextLine?_eq_none_iff.mp h with hoff | hzero
  · rw [hon] at hoff
    cases hoff
  · exact hpending hzero

/-- Where there is a byte the first check passes. -/
theorem checks_pass_address (hfull : c.processor.memory.Full) {opcode : UInt8}
    (hbyte : c.processor.memory.get? c.processor.pc = some opcode) :
    decide (c.processor.pc < 0 ∨ 255 < c.processor.pc) = false := by
  have hcovers := Memory.get?_isSome_iff.mp (Option.isSome_of_eq_some hbyte)
  rw [hfull.covers_iff] at hcovers
  exact decide_eq_false (by omega)

theorem firstFault_of_illegal (hfull : c.processor.memory.Full) {opcode : UInt8}
    (hidle : c.processor.nextLine? = none)
    (hbyte : c.processor.memory.get? c.processor.pc = some opcode)
    (hi : c.table.get opcode = none) :
    firstFault c.checks = some (.illegalOpcode c.processor.pc opcode) := by
  rw [checks_of_idle hidle, List.cons_append, Processor.byteAt_eq hbyte,
    firstFault_of_passes (checks_pass_address hfull hbyte), List.cons_append]
  exact firstFault_of_applies (by rw [hi]; rfl)

theorem firstFault_of_instruction (hfull : c.processor.memory.Full) {opcode : UInt8}
    {i : Instruction} (hidle : c.processor.nextLine? = none)
    (hbyte : c.processor.memory.get? c.processor.pc = some opcode)
    (hi : c.table.get opcode = some i) :
    firstFault c.checks = firstFault (c.processor.checks i.operation) := by
  rw [checks_of_idle hidle, List.cons_append, Processor.byteAt_eq hbyte, hi,
    firstFault_of_passes (checks_pass_address hfull hbyte), List.cons_append]
  exact firstFault_of_passes rfl

/-- A tick that ends with a fault is judged by it. -/
theorem judged_faulted (f : Fault) (h : effects.filterMap Effect.report? = []) :
    Turn.Judged (some f) c (d.faulted host effects f : Turn σ ε) where
  returned := rfl
  fault := rfl
  reports := by
    rw [effects_faulted, List.filterMap_append, h]
    rfl
  halted := ⟨fun _ => .inl rfl, fun _ => rfl⟩
  stops := fun _ => by simp [effects_faulted]

/-- An instruction that succeeds is judged without a fault. -/
theorem judged_completed (hfault : d.fault = c.fault) (h : effects.filterMap Effect.report? = [])
    (hhalted : d.processor.halted = true ↔ c.Executes .hlt) :
    Turn.Judged none c (d.completed host effects : Turn σ ε) where
  returned := failure_completed _
  fault := by rw [cpu_completed, hfault, Option.none_or]
  reports := by
    rw [completed]
    split
    · rw [List.filterMap_append, h]
      rfl
    · exact h
  halted := by
    rw [cpu_completed, hhalted]
    exact ⟨.inr, fun h => h.resolve_left (by simp)⟩
  stops := by
    intro hstop
    rw [cpu_completed] at hstop
    rw [completed, if_pos hstop]
    simp

/-- **An instruction ends as the checks of its operation say.** -/
theorem judged_perform {opcode : UInt8} {i : Instruction} (houtlet : outlet.Calm)
    (hfull : c.processor.memory.Full) (hrun : c.processor.halted = false)
    (hidle : c.processor.nextLine? = none)
    (hbyte : c.processor.memory.get? c.processor.pc = some opcode)
    (hi : c.table.get opcode = some i) :
    ((c.fetching opcode i.mnemonic).perform outlet i host).Judged
      (firstFault (c.processor.checks i.operation)) c := by
  have hcovers := Memory.get?_isSome_iff.mp (Option.isSome_of_eq_some hbyte)
  have hpc := hfull.covers_iff.mp hcovers
  have hexecutes : c.Executes .hlt ↔ i.operation = .hlt := by
    have hinstruction : c.instruction? = some i := instruction?_eq_some_iff.mpr ⟨opcode, hbyte, hi⟩
    rw [Executes, hinstruction]
    simp [hrun, hidle]
  have hfails := Processor.failsBy_execute (p := (c.fetching opcode i.mnemonic).processor) hfull
    hpc.1 i.operation
  rw [processor_fetching, Processor.checks_withIr] at hfails
  have hhalts {out : Output} {q : Processor}
      (h : Processor.execute i.operation (c.fetching opcode i.mnemonic).processor = .ok out q) :
      q.halted = true ↔ c.Executes .hlt := by
    rw [Processor.halted_of_execute h, hexecutes]
    show (c.processor.halted || _) = true ↔ _
    rw [hrun, Bool.false_or, beq_iff_eq]
  refine perform_cases ?_ ?_ ?_ ?_ ?_
  · intro f q h
    rw [hfails.of_error h]
    exact judged_faulted f rfl
  · intro q h
    rw [(hfails.of_ok h).1]
    exact judged_completed rfl rfl (hhalts h)
  · intro s width q r effects h hserve
    rw [(hfails.of_ok h).1]
    have hsame := congrArg Processor.halted (Processor.serve_frame (outlet.deliver host s).2 q)
    have hquiet := Processor.filterMap_serve (rfl : Effect.report? .stopClock = none)
      (outlet.deliver host s).2 q
    rw [hserve] at hsame hquiet
    refine judged_completed rfl hquiet ?_
    show r.halted = true ↔ _
    rw [show r.halted = q.halted from hsame]
    exact hhalts h
  · -- an outlet that does not fail makes no instruction fault
    intro s width q r effects f _ hserve
    have hdone := Processor.serve_of_harmless (houtlet host s) q
    rw [hserve] at hdone
    cases hdone
  · intro s width q r effects reason _ hserve
    have hdone := Processor.serve_of_harmless (houtlet host s) q
    rw [hserve] at hdone
    cases hdone

/-- **Exactly when a tick faults.**  On a full block, with an outlet that does not fail, every tick of
    a running processor ends as its checks say: it faults exactly if one of them applies, and with
    the fault of the first that does. -/
theorem tick_faults_exactly (outlet : Outlet σ ε) (host : σ) (houtlet : outlet.Calm)
    (hfull : c.processor.memory.Full) (hrun : c.processor.halted = false) :
    (c.tick outlet host).Judged (firstFault c.checks) c := by
  refine tick_cases ?_ ?_ ?_ ?_ ?_ ?_
  · intro hhalted
    rw [hrun] at hhalted
    cases hhalted
  · intro line q _ hline hq
    rw [checks_of_nextLine? hline, ((Processor.failsBy_enterInterrupt hfull line).of_ok hq).1]
    have hstill : ¬ q.halted = true := by
      rw [Processor.halted_of_enterInterrupt hq, hrun]
      decide
    have hother : ¬ c.Executes .hlt := by
      rintro ⟨_, hidle, _⟩
      rw [hline] at hidle
      cases hidle
    exact ⟨rfl, rfl, rfl, ⟨fun h => absurd h hstill, fun h => by simp [hother] at h⟩,
      fun h => absurd h hstill⟩
  · intro line f q _ hline hq
    rw [checks_of_nextLine? hline, (Processor.failsBy_enterInterrupt hfull line).of_error hq]
    exact judged_faulted f rfl
  · intro _ hidle hcovers
    rw [hfull.covers_iff] at hcovers
    rw [checks_of_idle hidle, List.cons_append,
      firstFault_of_applies (decide_eq_true (by omega)), Processor.missed_of_full hfull]
    exact judged_faulted _ rfl
  · intro opcode _ hidle hbyte hi
    rw [firstFault_of_illegal hfull hidle hbyte hi]
    exact judged_faulted _ rfl
  · intro opcode i _ hidle hbyte hi
    rw [firstFault_of_instruction hfull hidle hbyte hi]
    exact judged_perform houtlet hfull hrun hidle hbyte hi

/-- A pop of the last address into the stack pointer, with a line pending that is masked out.  The
    outlet would stop the clock and request a line, but nothing is put out. -/
theorem tick_faults_exactly_at_pop :
    let c : Cpu := { processor := {
      registers := ⟨#v[0, 0, 0, 0, 0, 0, 0x80, 0x02]⟩, memory := .holding [0x0b, 0x07, 0xff] } }
    let outlet : Outlet Unit String := ⟨fun host _ => (host, [.stopClock, .raise 7])⟩
    let turn := c.tick outlet ()
    turn.failure = none ∧ turn.cpu.fault = some (.stack .underflow) ∧
      turn.effects.filterMap Effect.report? = ["stack underflow"] ∧
      turn.cpu.processor.halted = true := by
  intro c outlet turn
  have hcalm : outlet.Calm := by
    intro host s r hr
    rcases List.mem_cons.mp hr with rfl | hr
    · trivial
    · rw [List.mem_singleton.mp hr]
      exact ⟨by decide, by decide⟩
  have hverdict : firstFault c.checks = some (.stack .underflow) := by decide +kernel
  have hjudged : turn.Judged (firstFault c.checks) c :=
    tick_faults_exactly outlet () hcalm (Memory.full_holding _) rfl
  rw [hverdict] at hjudged
  exact ⟨hjudged.returned, hjudged.fault, hjudged.reports, hjudged.halted.mpr (.inl rfl)⟩

end Cpu

end Ls8
