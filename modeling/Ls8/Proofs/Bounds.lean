import Ls8.Proofs.History
import Ls8.Proofs.StepFailure

/-
  Bounds that hold of a processor whatever its host does to it.

  Registers, memory and the fetched byte are bytes by their types, and no write relies on that where
  nothing reduces the value: the stack pointer is checked before it moves, and the pending lines are
  changed bit by bit (`toNat_status_withPending`, `toNat_status_acknowledged`).

  The one number without a type to bound it is the program counter.  It starts at zero, and it moves
  in three ways only:

    * an instruction moves on by its width, having fetched at least its opcode and, unless it is a
      conditional jump that is not taken, every operand byte it skips;
    * a jump, a return or an entry of an interrupt puts a byte into it;
    * everything else leaves it.

  So the largest value is that of a conditional jump at 255 which is not taken: it skips an operand
  that it has not read, and ends at 257 (`pcInRange_of_row`).

  A tick gives every fault to the processor, so what leaves a tick is a failure of the host's own
  (`failure_of_tick`); it leaves the processor where it was, except for the byte fetched.

  Main statement: both hold after every history (`bounded_run`).
-/

namespace Ls8

variable {σ ε : Type}

namespace Processor

variable {p q : Processor}

/-! ## The pending lines -/

/-- A request for an interrupt sets one bit of the pending lines, none above the eighth. -/
theorem toNat_status_withPending (line : Register) :
    ((p.withPending line).registers.get .status).toNat =
      (p.registers.get .status).toNat ||| 1 <<< (line : Nat) := by
  have hbit : (lineBit line).toNat = 1 <<< (line : Nat) := by
    revert line
    decide
  rw [withPending, registers_withRegister, Registers.get_set_self, UInt8.toNat_or, hbit]

/-- An acknowledgement clears one bit of the pending lines. -/
theorem toNat_status_acknowledged (line : Register) :
    ((p.acknowledged line).registers.get .status).toNat =
      (p.registers.get .status).toNat &&& (255 - 1 <<< (line : Nat)) := by
  have hbit : (~~~ lineBit line).toNat = 255 - 1 <<< (line : Nat) := by
    revert line
    decide
  have hstatus : (p.acknowledged line).registers.get .status =
      p.registers.get .status &&& ~~~ lineBit line :=
    Registers.get_set_self _ _ _
  rw [hstatus, UInt8.toNat_and, hbit]

/-! ## The program counter -/

/-- The range of the program counter. -/
def PcInRange (p : Processor) : Prop := 0 ≤ p.pc ∧ p.pc ≤ 257

theorem pcInRange_of_byte {b : UInt8} (h : p.pc = b.toNat) : p.PcInRange := by
  have := b.toNat_lt
  unfold PcInRange
  omega

theorem pcInRange_fresh (memory : Memory) : PcInRange { memory } := by
  show (0 : Int) ≤ 0 ∧ (0 : Int) ≤ 257
  decide

theorem PcInRange.of_eq (h : p.PcInRange) (hq : q.pc = p.pc) : q.PcInRange := by
  unfold PcInRange
  rw [hq]
  exact h

/-- An address with a byte lies in the address space. -/
theorem operand_bounds {k : Int} {b : UInt8} (h : p.Operand k b) :
    0 ≤ p.pc + k ∧ p.pc + k ≤ 255 := by
  have hcovers : p.memory.Covers (p.pc + k) :=
    Memory.get?_isSome_iff.mp (Option.isSome_of_eq_some h)
  have hfits := p.memory.fits
  unfold Memory.Covers at hcovers
  omega

/-- **No row leads out of the range** from an address that can be fetched. -/
theorem pcInRange_of_row {op : Operation} {text : Option String} (hpc : 0 ≤ p.pc ∧ p.pc ≤ 255)
    (h : Row p op q text) : q.PcInRange := by
  unfold PcInRange
  cases h with
  | nop => simp only; omega
  | ldi _ h2 =>
    have := operand_bounds h2
    simp only
    omega
  | add _ h2 | mul _ h2 | cmp _ h2 | st _ h2 _ =>
    have := operand_bounds h2
    simp only
    omega
  | prn h1 | pra h1 | push h1 _ _ | pop h1 _ _ _ | popSp h1 _ _ =>
    have := operand_bounds h1
    simp only
    omega
  | call _ _ _ _ | jmp _ | jeqTaken _ _ | jneTaken _ _ | ret _ _ | iret _ _ _ _ _ =>
    exact pcInRange_of_byte rfl
  -- the operand of a jump that is not taken may lie behind the last address
  | jeqPassed _ | jnePassed _ => simp only; omega
  | hlt => simp only; omega

/-- A completed entry of an interrupt puts a byte into the counter. -/
theorem pcInRange_of_entered {line : Register} {u : Unit}
    (h : enterInterrupt line p = .ok u q) : q.PcInRange := by
  simp only [enterInterrupt_eq, bind_eq_ok_iff, jump_eq_ok_iff] at h
  obtain ⟨_, _, _, _, _, _, b, _, _, rfl⟩ := h
  exact pcInRange_of_byte rfl

/-- **A serving fails** at a failure of the host's own, before which nothing was refused; without
    a request for an interrupt before it, the processor is as it was. -/
theorem serve_failed {requests : List (Request ε)} {effects : List Effect} {reason : ε}
    (h : p.serve requests = (q, effects, .failed reason)) :
    ∃ before after, requests = before ++ .fail reason :: after ∧
      (∀ request ∈ before, request = .stopClock ∨ ∃ line, request = .raise line) ∧
      ((∀ line, .raise line ∉ before) → q = p) := by
  induction requests generalizing p effects with
  | nil => cases h
  | cons request rest ih =>
    cases request with
    | fault f => cases h
    | fail r =>
      cases h
      exact ⟨[], rest, rfl, fun _ hr => absurd hr List.not_mem_nil, fun _ => rfl⟩
    | stopClock =>
      rcases hrest : p.serve rest with ⟨r, more, ending⟩
      simp only [serve, hrest, Prod.mk.injEq] at h
      obtain ⟨rfl, _, rfl⟩ := h
      obtain ⟨before, after, rfl, hbefore, hq⟩ := ih hrest
      refine ⟨.stopClock :: before, after, rfl, ?_, fun hraise => hq fun line hline => ?_⟩
      · rintro request hr
        rcases List.mem_cons.mp hr with rfl | hr
        · exact .inl rfl
        · exact hbefore request hr
      · exact hraise line (List.mem_cons_of_mem _ hline)
    | raise line =>
      rw [serve] at h
      cases hraise : p.raise line with
      | error e =>
        rw [hraise] at h
        cases h
      | ok r =>
        rw [hraise] at h
        obtain ⟨before, after, rfl, hbefore, _⟩ := ih h
        refine ⟨.raise line :: before, after, rfl, ?_, fun hno => ?_⟩
        · rintro request hr
          rcases List.mem_cons.mp hr with rfl | hr
          · exact .inr ⟨line, rfl⟩
          · exact hbefore request hr
        · exact absurd List.mem_cons_self (hno line)

end Processor

namespace Cpu

variable {outlet : Outlet σ ε} {c : Cpu} {host : σ}

/-! ## The tick -/

/-- An instruction keeps the counter in range. -/
theorem pcInRange_perform {i : Instruction} (hpc : 0 ≤ c.processor.pc ∧ c.processor.pc ≤ 255) :
    (c.perform outlet i host).cpu.processor.PcInRange := by
  have hrange : c.processor.PcInRange := ⟨hpc.1, by omega⟩
  refine perform_cases ?_ ?_ ?_ ?_ ?_
  · -- a fault
    intro f q h
    rcases (Processor.execute_error_frame h).2 with hq | ⟨b, hq⟩
    · exact hrange.of_eq hq
    · exact Processor.pcInRange_of_byte hq
  · -- no output
    intro q h
    rw [cpu_completed]
    exact Processor.pcInRange_of_row hpc (Processor.row_of_execute h)
  · -- an output that was taken
    intro s width q r effects h hserve
    have hland : q.pc + width ≤ 257 ∧ 0 ≤ q.pc + width :=
      (Processor.pcInRange_of_row hpc (Processor.row_of_execute h)).symm
    rw [cpu_completed]
    show 0 ≤ r.pc + width ∧ r.pc + width ≤ 257
    rw [Processor.pc_serve hserve]
    exact hland.symm
  · -- an output that ended in a fault
    intro s width q r effects f h hserve
    have hq := Processor.eq_of_execute_text h
    exact hrange.of_eq ((Processor.pc_serve hserve).trans (by rw [hq]))
  · -- an output that the host failed on
    intro s width q r effects reason h hserve
    have hq := Processor.eq_of_execute_text h
    exact hrange.of_eq ((Processor.pc_serve hserve).trans (by rw [hq]))

/-- **A tick keeps the counter in range.** -/
theorem pcInRange_tick (h : c.processor.PcInRange) :
    (c.tick outlet host).cpu.processor.PcInRange := by
  refine tick_cases ?_ ?_ ?_ ?_ ?_ ?_
  · exact fun _ => h
  · -- an entry puts the byte of a vector into the counter
    intro line q _ _ hq
    exact Processor.pcInRange_of_entered hq
  · -- a failed entry never gets to the counter
    intro line f q _ _ hq
    have hpc : q.pc = c.processor.pc := by rw [Processor.enterInterrupt_error_frame hq]
    exact h.of_eq hpc
  · exact fun _ _ _ => h
  · exact fun _ _ _ _ _ => h
  · -- what was fetched stands at an address, so the counter is at most 255 here
    intro opcode i _ _ hbyte _
    have hopcode : c.processor.Operand 0 opcode := by
      rw [Processor.Operand, Int.add_zero]
      exact hbyte
    have hbounds := Processor.operand_bounds hopcode
    rw [Int.add_zero] at hbounds
    exact pcInRange_perform (c := c.fetching opcode i.mnemonic) hbounds

/-- **What leaves a tick** is a failure of the host's own while it took a text; the processor is
    where it was, but for the byte fetched and the interrupts requested by then. -/
theorem failure_of_tick {reason : ε} (h : (c.tick outlet host).failure = some reason) :
    ∃ text before after, .output text ∈ (c.tick outlet host).effects ∧
      (outlet.deliver host text).2 = before ++ .fail reason :: after ∧
      (∀ request ∈ before, request = .stopClock ∨ ∃ line, request = .raise line) ∧
      ((∀ line, .raise line ∉ before) →
        (c.tick outlet host).cpu.processor =
          { c.processor with ir := (c.tick outlet host).cpu.processor.ir } ∧
        (c.tick outlet host).cpu.fault = c.fault) := by
  revert h
  -- only an instruction hands a text to the host
  refine tick_cases ?_ ?_ ?_ ?_ ?_ ?_
  · exact fun _ h => nomatch h
  · exact fun _ _ _ _ _ h => nomatch h
  · exact fun _ _ _ _ _ _ h => nomatch h
  · exact fun _ _ _ h => nomatch h
  · exact fun _ _ _ _ _ h => nomatch h
  · intro opcode i _ _ _ _
    refine perform_cases ?_ ?_ ?_ ?_ ?_
    · exact fun _ _ _ h => nomatch h
    · intro q _ h
      rw [failure_completed] at h
      exact nomatch h
    · intro s width q r effects _ _ h
      rw [failure_completed] at h
      exact nomatch h
    · exact fun _ _ _ _ _ _ _ _ h => nomatch h
    · intro s width q r effects reason' hexec hserve h
      obtain rfl := Option.some.inj h
      obtain ⟨before, after, hrequests, hbefore, hkept⟩ := Processor.serve_failed hserve
      refine ⟨s, before, after, by simp, hrequests, hbefore, fun hraise => ⟨?_, rfl⟩⟩
      rw [processor_withProcessor, hkept hraise, Processor.eq_of_execute_text hexec]
      rfl

end Cpu

/-! ## Histories -/

namespace Rig

variable {outlet : Outlet σ ε} {rig : Rig σ}

/-- Every action of a host keeps the counter in range. -/
theorem pcInRange_act (a : HostAction) (h : rig.cpu.processor.PcInRange) :
    (rig.act outlet a).cpu.processor.PcInRange := by
  cases a with
  | tick => exact Cpu.pcInRange_tick h
  | timer => exact h
  | setSp value => exact h
  | poke a value =>
    rw [act, Cpu.poke]
    cases rig.cpu.processor.memory.write a value <;> exact h
  | raise line =>
    rw [act, Cpu.raise]
    cases hraise : rig.cpu.processor.raise line with
    | error e => exact h
    | ok q =>
      obtain ⟨r, _, rfl⟩ := Processor.raise_eq_ok_iff.mp hraise
      exact h
  | setRegister index value =>
    rw [act]
    cases hset : Processor.setRegister index (UInt8.ofInt value) rig.cpu.processor with
    | error e q => exact h
    | ok u q =>
      obtain ⟨r, _, rfl⟩ := Processor.setRegister_eq_ok_iff.mp hset
      exact h

/-- A history keeps the counter in range. -/
theorem pcInRange_run (h : rig.cpu.processor.PcInRange) (actions : List HostAction) :
    (rig.run outlet actions).cpu.processor.PcInRange :=
  run_keeps (P := fun rig => rig.cpu.processor.PcInRange) (fun _ a h => pcInRange_act a h) h actions

/-- **Whatever a host does to a fresh processor, in whatever order:** registers, memory and the
    fetched byte hold bytes, the fetched byte has a slot in the instruction table, and the program
    counter is at most 257.  A request for an interrupt and its acknowledgement change the pending
    lines as whole numbers do, so the byte that they leave is the number itself and nothing is cut
    off.  Nothing leaves the next tick but a failure of the host's own, and that leaves the processor
    as it was unless the host had requested an interrupt before it. -/
theorem bounded_run (memory : Memory) (table : OpcodeTable) (trace : Option Trace.Recorder)
    (outlet : Outlet σ ε) (host : σ) (actions : List HostAction) :
    let fresh : Rig σ := { cpu := { processor := { memory }, table, trace }, host }
    let rig := fresh.run outlet actions
    let p := rig.cpu.processor
    let turn := rig.cpu.tick outlet rig.host
    (p.sample.registers.length = 8 ∧ ∀ x ∈ p.sample.registers, 0 ≤ x ∧ x ≤ 255) ∧
    (∀ a b, p.memory.get? a = some b → b.toNat ≤ 255) ∧
    (p.ir.toNat ≤ 255 ∧ ∃ slot, rig.cpu.table.slots[p.ir.toNat]? = some slot) ∧
    (0 ≤ p.pc ∧ p.pc ≤ 257) ∧
    (∀ line : Register,
      ((p.withPending line).registers.get .status).toNat =
        (p.registers.get .status).toNat ||| 1 <<< (line : Nat) ∧
      ((p.acknowledged line).registers.get .status).toNat =
        (p.registers.get .status).toNat &&& (255 - 1 <<< (line : Nat))) ∧
    ∀ reason, turn.failure = some reason →
      ∃ text before after, .output text ∈ turn.effects ∧
        (outlet.deliver rig.host text).2 = before ++ .fail reason :: after ∧
        (∀ request ∈ before, request = .stopClock ∨ ∃ line, request = .raise line) ∧
        ((∀ line, .raise line ∉ before) →
          turn.cpu.processor = { p with ir := turn.cpu.processor.ir } ∧
          turn.cpu.fault = rig.cpu.fault) := by
  intro fresh rig p turn
  have hfresh : fresh.cpu.processor.PcInRange := Processor.pcInRange_fresh memory
  have hpc : p.PcInRange := pcInRange_run hfresh actions
  refine ⟨⟨?_, ?_⟩, ?_, ⟨?_, ?_⟩, hpc, fun line => ⟨Processor.toNat_status_withPending line,
    Processor.toNat_status_acknowledged line⟩, fun reason h => Cpu.failure_of_tick h⟩
  · simp [Processor.sample]
  · intro x hx
    simp only [Processor.sample, List.mem_map] at hx
    obtain ⟨b, _, rfl⟩ := hx
    have := b.toNat_lt
    omega
  · intro a b _
    have := b.toNat_lt
    omega
  · have := p.ir.toNat_lt
    omega
  · have := p.ir.toNat_lt
    exact ⟨rig.cpu.table.slots[p.ir.toNat], Vector.getElem?_eq_getElem this⟩

/-- A host that refuses the output of the first instruction, after a history in which it refused
    that output once already. -/
theorem bounded_run_of_failing_host :
    let outlet : Outlet Unit String := ⟨fun host _ => (host, [.stopClock, .fail "closed"])⟩
    let fresh : Rig Unit := { cpu := { processor := { memory := .holding [0x06] } }, host := () }
    let rig := fresh.run outlet [.timer, .raise 9, .tick, .setSp (-1)]
    let turn := rig.cpu.tick outlet rig.host
    turn.failure = some "closed" ∧
      ∃ text before after, .output text ∈ turn.effects ∧
        (outlet.deliver rig.host text).2 = before ++ .fail "closed" :: after ∧
        (∀ request ∈ before, request = .stopClock ∨ ∃ line, request = .raise line) ∧
        ((∀ line, .raise line ∉ before) →
          turn.cpu.processor = { rig.cpu.processor with ir := turn.cpu.processor.ir } ∧
          turn.cpu.fault = rig.cpu.fault) := by
  intro outlet fresh rig turn
  have hfailure : turn.failure = some "closed" := by decide +kernel
  have h := bounded_run (.holding [0x06]) .standard none outlet ()
    [.timer, .raise 9, .tick, .setSp (-1)]
  exact ⟨hfailure, h.2.2.2.2.2 "closed" hfailure⟩

end Rig

end Ls8
