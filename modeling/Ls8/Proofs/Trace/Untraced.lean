import Ls8.Proofs.Tick

/-
  What a processor does without its recorder.

  A tick records at every interrupt that it enters, every instruction that it fetches and every fault,
  in part between two changes of the processor; but it never reads what was recorded.  So a tick of a
  processor without a recorder is the tick of the processor with one, once that is taken away
  (`tick_untraced`).

  Whatever else may be forgotten of a processor in this way is forgotten by its host's actions as well
  (`Forgets`).
-/

namespace Ls8

variable {σ ε : Type}

/-- The same without a recorder. -/
def Cpu.untraced (c : Cpu) : Cpu := { c with trace := none }

/-- A turn that leaves the same without a recorder. -/
def Turn.untraced (turn : Turn σ ε) : Turn σ ε := { turn with cpu := turn.cpu.untraced }

namespace Cpu

variable {outlet : Outlet σ ε} {c : Cpu} {host : σ}

theorem completed_untraced (c : Cpu) (host : σ) (effects : List Effect) :
    (c.untraced.completed host effects : Turn σ ε) = (c.completed host effects).untraced := by
  rw [completed, completed]
  show (if c.processor.halted then _ else _) = Turn.untraced (if c.processor.halted then _ else _)
  split <;> rfl

/-- What an instruction does, it does without a recorder as well. -/
theorem perform_untraced (outlet : Outlet σ ε) (i : Instruction) (c : Cpu) (host : σ) :
    c.untraced.perform outlet i host = (c.perform outlet i host).untraced := by
  rcases h : Processor.execute i.operation c.processor with ⟨out, q⟩ | ⟨f, q⟩
  · have h' : Processor.execute i.operation c.untraced.processor = .ok out q := h
    cases out with
    | silent =>
      rw [perform_of_silent h, perform_of_silent h']
      exact (c.withProcessor q).completed_untraced host _
    | text s width =>
      rcases hserve : q.serve (outlet.deliver host s).2 with ⟨r, effects, ending⟩
      rw [perform_of_text h hserve, perform_of_text h' hserve]
      cases ending with
      | done => exact (c.withProcessor { r with pc := r.pc + width }).completed_untraced _ _
      | fault f => rfl
      | failed reason => rfl
  · have h' : Processor.execute i.operation c.untraced.processor = .error f q := h
    rw [perform_of_error h, perform_of_error h']
    rfl

/-- **What a tick does, it does without a recorder as well.** -/
theorem tick_untraced (outlet : Outlet σ ε) (c : Cpu) (host : σ) :
    c.untraced.tick outlet host = (c.tick outlet host).untraced := by
  cases hrun : c.processor.halted with
  | true =>
    rw [tick_of_halted outlet hrun, tick_of_halted outlet (c := c.untraced) hrun]
    rfl
  | false =>
    cases hline : c.processor.nextLine? with
    | some line =>
      rcases h : Processor.enterInterrupt line c.processor with ⟨⟨⟩, q⟩ | ⟨f, q⟩
      · rw [tick_of_entered hrun hline h, tick_of_entered (c := c.untraced) hrun hline h]
        rfl
      · rw [tick_of_entry_fault hrun hline h, tick_of_entry_fault (c := c.untraced) hrun hline h]
        rfl
    | none =>
      rw [tick_of_idle hrun hline, tick_of_idle (c := c.untraced) hrun hline]
      cases hbyte : c.processor.memory.get? c.processor.pc with
      | none =>
        have hcovers := Memory.get?_eq_none_iff.mp hbyte
        rw [step_of_not_covers hcovers, step_of_not_covers (c := c.untraced) hcovers]
        rfl
      | some opcode =>
        cases hi : c.table.get opcode with
        | none =>
          rw [step_of_illegal hbyte hi, step_of_illegal (c := c.untraced) hbyte hi]
          rfl
        | some i =>
          rw [step_of_instruction hbyte hi, step_of_instruction (c := c.untraced) hbyte hi]
          exact perform_untraced outlet i (c.fetching opcode i.mnemonic) host

/-- **What may be forgotten of a processor:** not what its ticks or its host look at. -/
structure Forgets (forget : Cpu → Cpu) : Prop where
  processor : ∀ c, (forget c).processor = c.processor
  withProcessor : ∀ c p, forget (c.withProcessor p) = (forget c).withProcessor p
  tick : ∀ {σ ε : Type} (outlet : Outlet σ ε) c host, (forget c).tick outlet host =
    { c.tick outlet host with cpu := forget (c.tick outlet host).cpu }

/-- Nothing may be forgotten, of course. -/
theorem forgets_id : Forgets id := ⟨fun _ => rfl, fun _ _ => rfl, fun _ _ _ => rfl⟩

/-- **The recorder may be forgotten.** -/
theorem forgets_untraced : Forgets untraced :=
  ⟨fun _ => rfl, fun _ _ => rfl, fun outlet c host => tick_untraced outlet c host⟩

section Forgets
variable {forget : Cpu → Cpu} (h : Forgets forget)
include h

theorem Forgets.poke (c : Cpu) (a value : Int) :
    (forget c).poke a value = (c.poke a value).map forget := by
  rw [Cpu.poke, Cpu.poke, h.processor]
  cases c.processor.memory.write a value with
  | error e => rfl
  | ok memory =>
    have hcpu := h.withProcessor c { c.processor with memory := memory }
    rw [← h.processor c] at hcpu ⊢
    exact congrArg Except.ok hcpu.symm

theorem Forgets.raise (c : Cpu) (line : Int) :
    (forget c).raise line = (c.raise line).map forget := by
  rw [Cpu.raise, Cpu.raise, h.processor]
  cases c.processor.raise line with
  | error e => rfl
  | ok p => exact congrArg Except.ok (h.withProcessor c p).symm

theorem Forgets.timer (c : Cpu) : (forget c).timer = forget c.timer := by
  have hcpu := h.withProcessor c (c.processor.withPending timerLine)
  rw [Cpu.timer, h.processor]
  exact hcpu.symm

end Forgets

end Cpu

end Ls8
