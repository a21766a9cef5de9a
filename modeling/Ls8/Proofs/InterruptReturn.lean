import Ls8.Proofs.InstructionTable
import Ls8.Proofs.Tick

/-
  The return from an interrupt gives back what the entry saved.

  The entry pushes the program counter and then the registers from the first to the last; the return
  pops in the opposite order.  The two meet in the frame of nine bytes that one leaves and the other
  finds (`Framed`): below the old pointer stand the program counter, then registers 0 to 6, and at
  the bottom the pointer itself, as it was when it had just been lowered to that place.

  So the return first sets the pointer to where it points already, and the other eight pops start
  from there.  What is given back as the pending lines is what was saved, without the line that was
  acknowledged, whatever has been requested since.

  Main statement: on a full block the frame is all that the return depends on
  (`tick_return_of_entry`).
-/

namespace Ls8

variable {σ ε : Type}

namespace Processor

variable {p q : Processor}

/-! ## The frame -/

/-- **The nine bytes** below the pointer of `rs` that hold these registers and a program counter. -/
structure Framed (m : Memory) (rs : Registers) (back : UInt8) : Prop where
  back : m.get? ((rs.get .sp).toNat - 1) = some back
  value : ∀ r : Register, r ≠ .sp → m.get? ((rs.get .sp).toNat - 2 - (r : Nat)) = some (rs.get r)
  pointer : m.get? ((rs.get .sp).toNat - 9) = some (rs.get .sp - 9)

/-- A frame stays one as long as its nine bytes do. -/
theorem Framed.of_agree {m m' : Memory} {rs : Registers} {back : UInt8} (h : Framed m rs back)
    (hagree : ∀ k : Nat, 1 ≤ k → k ≤ 9 →
      m'.get? ((rs.get .sp).toNat - k) = m.get? ((rs.get .sp).toNat - k)) :
    Framed m' rs back := by
  constructor
  · rw [← h.back]
    exact hagree 1 (by omega) (by omega)
  · intro r hr
    have hlt : (r : Nat) < 7 := by
      have hne : (r : Nat) ≠ 7 := fun he => hr (Fin.ext he)
      omega
    have hk := hagree (r + 2) (by omega) (by omega)
    rw [← h.value r hr]
    have ha : ((rs.get .sp).toNat : Int) - 2 - (r : Nat) =
        (rs.get .sp).toNat - ((r + 2 : Nat) : Int) := by omega
    rw [ha, hk]
  · rw [← h.pointer]
    exact hagree 9 (by omega) (by omega)

/-! ## The entry -/

/-- The registers below the stack pointer, from the first to the last. -/
def savable : List Register := restorable.reverse

theorem length_savable : savable.length = 7 := rfl

/-- A frame has nine bytes. -/
theorem length_frame (back : UInt8) (rs : Registers) (pointer : UInt8) :
    ([back] ++ savable.map rs.get ++ [pointer]).length = 9 := by
  simp [length_savable]

theorem getElem_savable (r : Register) (hr : (r : Nat) < savable.length) :
    savable[(r : Nat)] = r := by
  revert r
  decide

theorem sp_notMem_savable : Register.sp ∉ savable := by decide

/-- Bytes pushed from a pointer down to a frame of nine. -/
theorem framed_of_saved {back : UInt8}
    (h : Saved ([back] ++ savable.map p.registers.get ++ [p.sp - 9]) p q) :
    Framed q.memory p.registers back := by
  constructor
  · have hfirst : q.memory.get? (p.sp.toNat - 1 - (0 : Nat)) = some back := h.stored 0 (by simp)
    rwa [Int.natCast_zero, Int.sub_zero] at hfirst
  · intro r hr
    have hlt : (r : Nat) < savable.length := by
      have hne : (r : Nat) ≠ 7 := fun he => hr (Fin.ext he)
      rw [length_savable]
      omega
    have hk := h.stored (r + 1) (by simp; omega)
    rw [List.getElem_append_left (by simp; omega), List.getElem_append_right (by simp)] at hk
    simp only [List.length_singleton, Nat.add_sub_cancel, List.getElem_map,
      getElem_savable r hlt] at hk
    rw [← hk]
    congr 1
    simp only [sp]
    omega
  · have hlast := h.stored 8 (by simp [length_savable])
    rw [List.getElem_append_right (by simp [length_savable])] at hlast
    simp only [List.getElem_singleton] at hlast
    have ha : (p.sp.toNat : Int) - 1 - (8 : Nat) = p.sp.toNat - 9 := by omega
    rw [ha] at hlast
    exact hlast

theorem sp_ne_zero (h : 0 < p.sp.toNat) : p.sp ≠ 0 := by
  intro h0
  rw [h0] at h
  exact Nat.lt_irrefl _ h

/-- Saving all registers pushes their values, the pointer's being the one it is lowered to. -/
theorem exists_saveRegisters (hfull : p.memory.Full) (hroom : 8 ≤ p.sp.toNat) :
    ∃ q, [0, 1, 2, 3, 4, 5, 6, 7].forM pushRegister p = .ok () q ∧
      Saved (savable.map p.registers.get ++ [p.sp - 8]) p q := by
  obtain ⟨q₁, hsave, hq₁⟩ := exists_forM_pushRegister sp_notMem_savable hfull
    (by rw [length_savable]; omega)
  have hsp₁ := hq₁.pointer
  rw [List.length_map, length_savable] at hsp₁
  have hnonzero : q₁.sp ≠ 0 := sp_ne_zero (by omega)
  obtain ⟨q₂, hlast, hq₂⟩ := exists_pushByte (hq₁.full hfull) hnonzero (q₁.sp - 1)
  have hpointer : q₁.sp - 1 = p.sp - 8 := by
    have := p.sp.toNat_lt
    rw [← UInt8.toNat_inj, toNat_sub_one hnonzero, UInt8.toNat_sub]
    simp
    omega
  have hsaved := hq₁.trans hq₂
  rw [hpointer] at hsaved
  refine ⟨q₂, ?_, hsaved⟩
  have hseven : pushRegister ((Register.sp : Nat) : Int) q₁ = .ok () q₂ := by
    rw [pushRegister_eq, registers_withRegister, Registers.get_set_self]
    exact hlast
  have hseven' : (forM (indices savable) pushRegister : Step Unit) p = .ok () q₁ := hsave
  show (forM (indices savable ++ [((Register.sp : Nat) : Int)]) pushRegister : Step Unit) p = _
  rw [List.forM_append, bind_of_ok hseven']
  show (pushRegister ((Register.sp : Nat) : Int) >>= fun _ => pure ()) q₁ = _
  rw [bind_of_ok hseven]
  rfl

/-- **An entry succeeds** on a full block with room for nine bytes: it saves what the processor is
    once the line has been acknowledged, and goes on at the address that stands in the vector of the
    line. -/
theorem exists_saved_of_enterInterrupt (line : Register) {back : UInt8} (hfull : p.memory.Full)
    (hback : (back.toNat : Int) = p.pc) (hroom : 9 ≤ p.sp.toNat) :
    ∃ q target, Saved ([back] ++ savable.map (p.acknowledged line).registers.get ++
        [(p.acknowledged line).sp - 9]) (p.acknowledged line) q ∧
      q.memory.get? (vectorTable + (line : Nat)) = some target ∧
      enterInterrupt line p = .ok () { q with pc := target.toNat } := by
  have hsp : (p.acknowledged line).sp.toNat = p.sp.toNat := by rw [sp_acknowledged]
  have hnonzero : (p.acknowledged line).sp ≠ 0 := sp_ne_zero (by omega)
  obtain ⟨q₁, hpush, hq₁⟩ := exists_pushByte (p := p.acknowledged line) hfull hnonzero back
  have hsp₁ := hq₁.pointer
  have hfull₁ := hq₁.full hfull
  rw [List.length_singleton] at hsp₁
  obtain ⟨q₂, hsave, hq₂⟩ := exists_saveRegisters hfull₁ (by omega)
  obtain ⟨target, htarget⟩ := (hq₂.full hfull₁).exists_get? (a := vectorTable + (line : Nat))
    (by simp only [vectorTable]; omega)
  have hvalues : savable.map q₁.registers.get = savable.map (p.acknowledged line).registers.get := by
    apply List.map_congr_left
    intro r hr
    exact hq₁.registers_of_ne fun he => sp_notMem_savable (he ▸ hr)
  have hpointer : q₁.sp - 8 = (p.acknowledged line).sp - 9 := by
    have := (p.acknowledged line).sp.toNat_lt
    rw [← UInt8.toNat_inj, UInt8.toNat_sub, UInt8.toNat_sub]
    simp
    omega
  have hsaved := hq₁.trans hq₂
  rw [hvalues, hpointer, ← List.append_assoc] at hsaved
  refine ⟨q₂, target, hsaved, htarget, ?_⟩
  have hback' : push p.pc (p.acknowledged line) = .ok () q₁ :=
    push_eq_ok_iff.mpr ⟨back, hback, hpush⟩
  have hvector : readByte (vectorTable + (line : Nat)) q₂ = .ok target q₂ := readByte_of_get? htarget
  rw [enterInterrupt_eq, bind_of_ok hback', bind_of_ok hsave, bind_of_ok hvector]
  rfl

/-- An entry leaves the frame of what the processor was once the line had been acknowledged. -/
theorem exists_enterInterrupt (line : Register) {back : UInt8} (hfull : p.memory.Full)
    (hback : (back.toNat : Int) = p.pc) (hroom : 9 ≤ p.sp.toNat) :
    ∃ q, enterInterrupt line p = .ok () q ∧ Framed q.memory (p.acknowledged line).registers back ∧
      q.sp.toNat = p.sp.toNat - 9 ∧ q.interruptsEnabled = false ∧ q.halted = p.halted := by
  obtain ⟨q, target, hsaved, _, henter⟩ := exists_saved_of_enterInterrupt line hfull hback hroom
  have hframed : Framed q.memory (p.acknowledged line).registers back := framed_of_saved hsaved
  refine ⟨{ q with pc := target.toNat }, henter, hframed, ?_, ?_, ?_⟩
  · have hpointer := hsaved.pointer
    rw [sp_acknowledged, length_frame] at hpointer
    exact hpointer
  · show q.interruptsEnabled = false
    rw [hsaved.frame]
    rfl
  · show q.halted = p.halted
    rw [hsaved.frame]
    rfl

/-! ## The return -/

/-- **A return from a frame** gives back its registers and its program counter. -/
theorem row_iret_of_framed {rs : Registers} {back : UInt8} (h : Framed p.memory rs back)
    (hroom : 9 ≤ (rs.get .sp).toNat) (hsp : p.sp.toNat = (rs.get .sp).toNat - 9) :
    Row p .iret { p with registers := rs, pc := back.toNat, interruptsEnabled := true } none := by
  have hlt := (rs.get .sp).toNat_lt
  have hbottom : (rs.get .sp - 9).toNat = (rs.get .sp).toNat - 9 := by
    rw [UInt8.toNat_sub]
    simp
    omega
  refine .iret (m := rs.get .sp - 9) ?_ ?_ ?_ ?_ ?_
  · rw [← h.pointer, hsp]
    congr 1
    omega
  · omega
  · intro r hr
    rw [← h.value r hr, hbottom]
    congr 1
    omega
  · rw [← UInt8.toNat_inj, UInt8.toNat_add, hbottom]
    simp
    omega
  · rw [← h.back, hbottom]
    congr 1
    omega

end Processor

namespace Cpu

variable {outlet : Outlet σ ε} {c : Cpu} {host : σ}

/-- **A tick that returns from a frame** gives back its registers and its program counter, and does
    nothing else. -/
theorem tick_of_return (outlet : Outlet σ ε) (host : σ) {opcode : UInt8} {i : Instruction}
    {rs : Registers} {back : UInt8}
    (hrun : c.processor.halted = false) (hoff : c.processor.interruptsEnabled = false)
    (hbyte : c.processor.memory.get? c.processor.pc = some opcode)
    (hentry : c.table.get opcode = some i) (hiret : i.operation = .iret)
    (hframe : Processor.Framed c.processor.memory rs back) (hroom : 9 ≤ (rs.get .sp).toNat)
    (hsp : c.processor.sp.toNat = (rs.get .sp).toNat - 9) :
    c.tick outlet host = ⟨(c.fetching opcode i.mnemonic).withProcessor
      { c.processor with
        ir := opcode, registers := rs, pc := back.toNat, interruptsEnabled := true },
      host, [(c.fetching opcode i.mnemonic).fetched i], none⟩ := by
  have hrow := Processor.row_iret_of_framed (p := (c.fetching opcode i.mnemonic).processor) hframe
    hroom hsp
  have hexec := Processor.execute_of_silent_row hrow
  rw [← hiret] at hexec
  rw [tick_of_idle hrun (Processor.nextLine?_eq_none_iff.mpr (.inl hoff)),
    step_of_instruction hbyte hentry, perform_of_silent hexec, completed, if_neg]
  · rfl
  · show ¬ c.processor.halted = true
    rw [hrun]
    decide

/-- The same, wherever the instruction comes from. -/
theorem tick_of_framed (outlet : Outlet σ ε) (host : σ) {i : Instruction}
    {rs : Registers} {back : UInt8}
    (hrun : c.processor.halted = false) (hoff : c.processor.interruptsEnabled = false)
    (hi : c.instruction? = some i) (hiret : i.operation = .iret)
    (hframe : Processor.Framed c.processor.memory rs back) (hroom : 9 ≤ (rs.get .sp).toNat)
    (hsp : c.processor.sp.toNat = (rs.get .sp).toNat - 9) :
    ∃ opcode, c.tick outlet host = ⟨(c.fetching opcode i.mnemonic).withProcessor
      { c.processor with
        ir := opcode, registers := rs, pc := back.toNat, interruptsEnabled := true },
      host, [(c.fetching opcode i.mnemonic).fetched i], none⟩ := by
  obtain ⟨opcode, hbyte, hentry⟩ := instruction?_eq_some_iff.mp hi
  exact ⟨opcode, tick_of_return outlet host hrun hoff hbyte hentry hiret hframe hroom hsp⟩

/-- **Entry and return:** on a full block, with room for a frame, an interrupt is entered for the
    lowest pending line.  Whatever a handler does after that, if it comes to a return with interrupts
    disabled, the pointer at the frame and the frame as it was, the return succeeds.  It leaves the
    program counter and the registers as they were before the entry, but for the line that was
    entered, which is pending no more; interrupts are enabled, and nothing else has changed. -/
theorem tick_return_of_entry (outlet : Outlet σ ε) (host : σ)
    (hfull : c.processor.memory.Full) (hrun : c.processor.halted = false)
    (hon : c.processor.interruptsEnabled = true) (hpending : c.processor.pendingLines ≠ 0)
    (hpc : 0 ≤ c.processor.pc ∧ c.processor.pc ≤ 255) (hroom : 9 ≤ c.processor.sp.toNat) :
    let entered := (c.tick outlet host).cpu
    ∃ line, lowestLine? c.processor.pendingLines = some line ∧
      (c.tick outlet host).failure = none ∧ entered.fault = c.fault ∧
      entered.processor.halted = false ∧ entered.processor.interruptsEnabled = false ∧
      entered.processor.sp.toNat = c.processor.sp.toNat - 9 ∧
      ∀ (d : Cpu) (host₂ : σ), d.processor.halted = false →
        d.processor.interruptsEnabled = false →
        d.processor.sp.toNat = c.processor.sp.toNat - 9 →
        (∀ k : Nat, 1 ≤ k → k ≤ 9 → d.processor.memory.get? (c.processor.sp.toNat - k) =
          entered.processor.memory.get? (c.processor.sp.toNat - k)) →
        d.instruction?.map (·.operation) = some .iret →
        let turn := d.tick outlet host₂
        turn.failure = none ∧ turn.cpu.fault = d.fault ∧ turn.host = host₂ ∧
        (∀ text, .output text ∉ turn.effects ∧ .report text ∉ turn.effects) ∧
        turn.cpu.processor = { d.processor with
          ir := turn.cpu.processor.ir
          pc := c.processor.pc
          registers := c.processor.registers.set .status
            (c.processor.registers.get .status &&& ~~~ lineBit line)
          interruptsEnabled := true } ∧
        ∀ k, hasLine (turn.cpu.processor.registers.get .status) k =
          (hasLine (c.processor.registers.get .status) k && decide (k ≠ line)) := by
  intro entered
  obtain ⟨line, hline⟩ : ∃ line, lowestLine? c.processor.pendingLines = some line := by
    cases h : lowestLine? c.processor.pendingLines with
    | none => exact absurd (lowestLine?_eq_none_iff.mp h) hpending
    | some line => exact ⟨line, rfl⟩
  obtain ⟨back, hback⟩ : ∃ back : UInt8, (back.toNat : Int) = c.processor.pc := by
    refine ⟨UInt8.ofNat c.processor.pc.toNat, ?_⟩
    rw [UInt8.toNat_ofNat']
    omega
  obtain ⟨q, hq, hframed, hqsp, hqoff, hqrun⟩ :=
    Processor.exists_enterInterrupt line hfull hback hroom
  have htick : c.tick outlet host =
      ⟨(c.entering line).withProcessor q, host, [c.entryNotice line], none⟩ :=
    tick_of_entered hrun ((Processor.nextLine?_of_enabled hon).trans hline) hq
  have hentered : entered.processor = q := by
    show (c.tick outlet host).cpu.processor = q
    rw [htick]
    rfl
  have hsp : (c.processor.acknowledged line).registers.get .sp = c.processor.sp :=
    Processor.sp_acknowledged c.processor line
  refine ⟨line, hline, ?_, ?_, ?_, ?_, ?_, ?_⟩
  · rw [htick]
  · show (c.tick outlet host).cpu.fault = c.fault
    rw [htick]
    rfl
  · rw [hentered, hqrun, hrun]
  · rw [hentered, hqoff]
  · rw [hentered, hqsp]
  · -- the frame is still one for the handler's processor, since its bytes are the same
    intro d host₂ hdrun hdoff hdsp hagree hdi
    obtain ⟨i, hi, hiret⟩ := Option.map_eq_some_iff.mp hdi
    have hdframed : Processor.Framed d.processor.memory
        (c.processor.acknowledged line).registers back := by
      refine hframed.of_agree fun k hk hk' => ?_
      rw [hsp, hagree k hk hk', hentered]
    obtain ⟨opcode, hturn⟩ := tick_of_framed outlet host₂ hdrun hdoff hi hiret hdframed
      (by rw [hsp]; exact hroom) (by rw [hsp]; exact hdsp)
    intro turn
    have hturn' : turn = _ := hturn
    refine ⟨?_, ?_, ?_, fun text => ⟨?_, ?_⟩, ?_, fun k => ?_⟩ <;> rw [hturn']
    · rfl
    · simp [fetched]
    · simp [fetched]
    · rw [processor_withProcessor, hback]
      rfl
    · exact (congrArg (hasLine · k) (Registers.get_set_self _ _ _)).trans (hasLine_clear _ _ _)

/-- An entry for line 2 of three pending ones.  The handler comes to its return at zero with other
    registers and another outcome of a comparison, and with lines 2 and 3 requested meanwhile. -/
theorem tick_return_of_entry_of_line_two :
    let c : Cpu := { processor := {
      registers := ⟨#v[1, 2, 3, 4, 5, 0x14, 0x17, 0x30]⟩, pc := 0x41, memory := .holding [0x1a] } }
    let outlet : Outlet Unit String := .silent Unit String
    let d : Cpu := { processor := {
      registers := ⟨#v[0xee, 0, 0, 0, 0, 0xff, 0x0c, 0x27]⟩, pc := 0, interruptsEnabled := false,
      equal := some true, memory := (c.tick outlet ()).cpu.processor.memory } }
    let turn := d.tick outlet ()
    turn.failure = none ∧ turn.cpu.processor.pc = 0x41 ∧ turn.cpu.processor.equal = some true ∧
      turn.cpu.processor.registers = ⟨#v[1, 2, 3, 4, 5, 0x14, 0x13, 0x30]⟩ := by
  intro c outlet d turn
  obtain ⟨line, hline, _, _, _, _, _, hreturn⟩ := tick_return_of_entry (c := c) outlet ()
    (Memory.full_holding _) rfl rfl (by decide) (by decide) (by decide)
  have hsecond : line = 2 :=
    Option.some.inj (hline.symm.trans (show lowestLine? c.processor.pendingLines = some 2 by decide))
  have hiret : d.instruction?.map (·.operation) = some .iret := by decide +kernel
  obtain ⟨hfailure, _, _, _, hprocessor, _⟩ := hreturn d () rfl rfl (by decide)
    (fun _ _ _ => rfl) hiret
  rw [hsecond] at hprocessor
  refine ⟨hfailure, ?_, ?_, ?_⟩
  · rw [hprocessor]
  · rw [hprocessor]
  · rw [hprocessor]
    decide

end Cpu

end Ls8
