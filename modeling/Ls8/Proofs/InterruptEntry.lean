import Ls8.Proofs.History
import Ls8.Proofs.InterruptReturn

/-
  The entry of an interrupt, byte by byte.

  An entry writes nine bytes below the stack pointer, and two of the registers among them are
  changed by the entry itself: the pending lines are saved without the line that is taken, and the
  pointer is saved as it is when it has been lowered nine times.

  The crux is the vector.  It is read after the frame has been written, so where the stack reaches
  into the vector table the handler starts at a byte of the frame.

  1. `EnteredFrom` says what the processor is after an entry, in terms of what it was before.
  2. `EnteredFrom.pc_eq_iff` says when the vector is still the one that stood there.

  Main statement: on a full block with room for a frame the next tick is such an entry, and no other
  tick of a running processor enters anything (`tick_of_due_interrupt`).
-/

namespace Ls8

variable {σ ε : Type}

namespace Processor

variable {p q : Processor} {line : Register} {back old : UInt8}

/-! ## The frame -/

/-- **The bytes of the frame,** from the highest address down: the program counter, the registers 0
    to 5, the pending lines without the one that is taken, and the lowered pointer. -/
def entryFrame (p : Processor) (line : Register) (back : UInt8) : List UInt8 :=
  [back] ++ p.registers.toList.take 6 ++
    [p.registers.get .status &&& ~~~ lineBit line, p.sp - 9]

/-- The values of the registers in order. -/
theorem toList_registers (rs : Registers) : rs.toList = (List.finRange 8).map rs.get := by
  refine List.ext_getElem (by simp) fun k hk hk' => ?_
  simp [Registers.toList, Registers.get]

theorem length_entryFrame (p : Processor) (line : Register) (back : UInt8) :
    (p.entryFrame line back).length = 9 := by
  simp [entryFrame]

/-- What an entry pushes, seen from before the line is acknowledged. -/
theorem pushed_eq_entryFrame (p : Processor) (line : Register) (back : UInt8) :
    [back] ++ savable.map (p.acknowledged line).registers.get ++ [(p.acknowledged line).sp - 9] =
      p.entryFrame line back := by
  have hstatus : (p.acknowledged line).registers.get .status =
      p.registers.get .status &&& ~~~ lineBit line := Registers.get_set_self _ _ _
  have hsavable : savable = savable.take 6 ++ [.status] := rfl
  -- the other registers are saved as they were
  have hothers : (savable.take 6).map (p.acknowledged line).registers.get =
      p.registers.toList.take 6 := by
    rw [toList_registers, ← List.map_take]
    refine List.map_congr_left fun r hr => Registers.get_set_ne _ ?_ _
    rintro rfl
    revert hr
    decide
  rw [hsavable, List.map_append, hothers, sp_acknowledged, List.map_singleton, hstatus, entryFrame]
  simp only [List.append_assoc, List.cons_append, List.nil_append]

/-! ## What an entry leaves -/

/-- **From `p` the interrupt of a line was entered:** the frame stands below the pointer, the
    handler starts at the byte that is now in the vector of the line, and nothing else has changed
    but the pointer, the pending lines and the interrupt flag. -/
structure EnteredFrom (p : Processor) (line : Register) (back : UInt8) (q : Processor) : Prop where
  stored : ∀ k : Nat, k < 9 → q.memory.get? (p.sp.toNat - 1 - k) = (p.entryFrame line back)[k]?
  kept : ∀ a : Int, a < p.sp.toNat - 9 ∨ p.sp.toNat ≤ a → q.memory.get? a = p.memory.get? a
  vector : (q.memory.get? (vectorTable + (line : Nat))).map (fun b => (b.toNat : Int)) = some q.pc
  frame : q = { p with
    registers := (p.registers.set .status (p.registers.get .status &&& ~~~ lineBit line)).set .sp
      (p.sp - 9)
    memory := q.memory
    pc := q.pc
    interruptsEnabled := false }

/-- Bytes pushed after the line was acknowledged, and a jump to the byte in the vector. -/
theorem enteredFrom_of_saved {target : UInt8}
    (h : Saved ([back] ++ savable.map (p.acknowledged line).registers.get ++
      [(p.acknowledged line).sp - 9]) (p.acknowledged line) q)
    (htarget : q.memory.get? (vectorTable + (line : Nat)) = some target) :
    EnteredFrom p line back { q with pc := target.toNat } := by
  rw [pushed_eq_entryFrame] at h
  have hlength := length_entryFrame p line back
  have hpointer := h.pointer
  have hroom := h.room
  rw [hlength, sp_acknowledged] at hpointer hroom
  constructor
  · intro k hk
    have hk' := h.stored k (by omega)
    rw [sp_acknowledged] at hk'
    rw [List.getElem?_eq_getElem (by omega)]
    exact hk'
  · intro a ha
    refine h.kept a ?_
    rw [sp_acknowledged]
    omega
  · show (q.memory.get? _).map _ = _
    rw [htarget]
    rfl
  · have hsp : q.sp = p.sp - 9 := by
      have := p.sp.toNat_lt
      rw [← UInt8.toNat_inj, hpointer, UInt8.toNat_sub]
      simp
      omega
    have hframe := h.frame
    rw [hsp] at hframe
    rw [hframe]
    rfl

/-- **An entry succeeds** on a full block with room for a frame. -/
theorem exists_enteredFrom (line : Register) (hfull : p.memory.Full)
    (hback : (back.toNat : Int) = p.pc) (hroom : 9 ≤ p.sp.toNat) :
    ∃ q, enterInterrupt line p = .ok () q ∧ EnteredFrom p line back q := by
  obtain ⟨q, target, hsaved, htarget, henter⟩ :=
    exists_saved_of_enterInterrupt line hfull hback hroom
  exact ⟨_, henter, enteredFrom_of_saved hsaved htarget⟩

/-- The registers after an entry. -/
theorem EnteredFrom.registers_eq (h : EnteredFrom p line back q) :
    q.registers = (p.registers.set .status (p.registers.get .status &&& ~~~ lineBit line)).set .sp
      (p.sp - 9) := by
  rw [h.frame]

/-- The lines that are pending after an entry. -/
theorem EnteredFrom.hasLine_eq (h : EnteredFrom p line back q) (k : Register) :
    hasLine (q.registers.get .status) k =
      (hasLine (p.registers.get .status) k && decide (k ≠ line)) := by
  rw [h.registers_eq, Registers.get_set_ne _ (by decide), Registers.get_set_self]
  exact hasLine_clear _ _ _

/-- **The vector that the handler starts from** is the one that stood there before the entry exactly
    if its address lies outside the frame, or the byte of the frame that was written over it is the
    same. -/
theorem EnteredFrom.pc_eq_iff (h : EnteredFrom p line back q)
    (hold : p.memory.get? (vectorTable + (line : Nat)) = some old) :
    q.pc = old.toNat ↔ (p.sp.toNat : Int) ≤ vectorTable + (line : Nat) ∨
      vectorTable + (line : Nat) < (p.sp.toNat : Int) - 9 ∨
      ∃ k : Nat, (p.sp.toNat : Int) - 1 - k = vectorTable + (line : Nat) ∧
        (p.entryFrame line back)[k]? = some old := by
  -- the handler starts at the old byte if and only if that byte is in the vector now
  have hnow : q.pc = old.toNat ↔ q.memory.get? (vectorTable + (line : Nat)) = some old := by
    obtain ⟨b, hb, hpc⟩ := Option.map_eq_some_iff.mp h.vector
    rw [hb, ← hpc, Option.some.injEq, ← UInt8.toNat_inj]
    omega
  rw [hnow]
  by_cases hin : (p.sp.toNat : Int) - 9 ≤ vectorTable + (line : Nat) ∧
      vectorTable + (line : Nat) < (p.sp.toNat : Int)
  · -- inside the frame the byte of the frame is there
    obtain ⟨k, hk⟩ : ∃ k : Nat, (p.sp.toNat : Int) - 1 - k = vectorTable + (line : Nat) :=
      ⟨((p.sp.toNat : Int) - 1 - (vectorTable + (line : Nat))).toNat, by omega⟩
    have hstored := h.stored k (by omega)
    rw [hk] at hstored
    rw [hstored]
    constructor
    · intro hbyte
      exact .inr (.inr ⟨k, hk, hbyte⟩)
    · rintro (habove | hbelow | ⟨j, hj, hbyte⟩)
      · omega
      · omega
      · have hjk : j = k := by omega
        rwa [hjk] at hbyte
  · -- outside of it nothing was written
    have houtside : vectorTable + (line : Nat) < (p.sp.toNat : Int) - 9 ∨
        (p.sp.toNat : Int) ≤ vectorTable + (line : Nat) := by omega
    rw [h.kept _ houtside]
    constructor
    · intro _
      exact houtside.elim (fun hbelow => .inr (.inl hbelow)) .inl
    · intro _
      exact hold

/-- A stack that begins below the vector table leaves the vectors. -/
theorem EnteredFrom.pc_eq_of_le (h : EnteredFrom p line back q)
    (hold : p.memory.get? (vectorTable + (line : Nat)) = some old) (hle : p.sp.toNat ≤ 0xf8) :
    q.pc = old.toNat := by
  refine (h.pc_eq_iff hold).mpr (.inl ?_)
  rw [vectorTable]
  omega

end Processor

/-! ## Ticks -/

namespace Cpu

open Processor (vectorTable)

variable {outlet : Outlet σ ε} {c : Cpu} {host : σ}

/-- Told of an interrupt that is entered. -/
def TellsOfEntry (e : Effect) : Prop := ∃ line pc sp, e = .diagnostic (.entering line pc sp)

theorem not_tellsOfEntry_stopClock : ¬ TellsOfEntry .stopClock := by
  rintro ⟨_, _, _, he⟩
  cases he

theorem not_tellsOfEntry_output (s : String) : ¬ TellsOfEntry (.output s) := by
  rintro ⟨_, _, _, he⟩
  cases he

theorem not_tellsOfEntry_fetched (i : Instruction) : ¬ TellsOfEntry (c.fetched i) := by
  rintro ⟨_, _, _, he⟩
  cases he

/-- A fault is no entry. -/
theorem not_tellsOfEntry_faulted {effects : List Effect} {f : Fault}
    (h : ∀ e ∈ effects, ¬ TellsOfEntry e) :
    ∀ e ∈ (c.faulted host effects f : Turn σ ε).effects, ¬ TellsOfEntry e := by
  intro e he
  rw [effects_faulted, List.mem_append] at he
  rcases he with he | he
  · exact h e he
  · rintro ⟨_, _, _, rfl⟩
    simp at he

/-- The end of a tick is no entry. -/
theorem not_tellsOfEntry_completed {effects : List Effect}
    (h : ∀ e ∈ effects, ¬ TellsOfEntry e) :
    ∀ e ∈ (c.completed host effects : Turn σ ε).effects, ¬ TellsOfEntry e := by
  intro e he
  rw [completed] at he
  split at he
  · rcases List.mem_append.mp he with he | he
    · exact h e he
    · rintro ⟨_, _, _, rfl⟩
      simp at he
  · exact h e he

/-- **No instruction enters an interrupt.** -/
theorem not_tellsOfEntry_perform (outlet : Outlet σ ε) (c : Cpu) (i : Instruction) (host : σ) :
    ∀ e ∈ (c.perform outlet i host).effects, ¬ TellsOfEntry e := by
  have alone : ∀ e ∈ [c.fetched i], ¬ TellsOfEntry e := by
    intro e he
    rw [List.mem_singleton.mp he]
    exact not_tellsOfEntry_fetched i
  -- what the host asks for while it takes a text is no entry either
  have told {s : String} {q r : Processor} {effects : List Effect} {ending : Ending ε}
      (hserve : q.serve (outlet.deliver host s).2 = (r, effects, ending)) :
      ∀ e ∈ c.fetched i :: .output s :: effects, ¬ TellsOfEntry e := by
    intro e he
    rcases List.mem_cons.mp he with rfl | he
    · exact not_tellsOfEntry_fetched i
    · rcases List.mem_cons.mp he with rfl | he
      · exact not_tellsOfEntry_output s
      · have hstop := Processor.serve_effects (outlet.deliver host s).2 q e
        rw [hserve] at hstop
        rw [hstop he]
        exact not_tellsOfEntry_stopClock
  refine perform_cases ?_ ?_ ?_ ?_ ?_
  · intro f q _
    exact not_tellsOfEntry_faulted alone
  · intro q _
    exact not_tellsOfEntry_completed alone
  · intro s width q r effects _ hserve
    exact not_tellsOfEntry_completed (told hserve)
  · intro s width q r effects f _ hserve
    exact not_tellsOfEntry_faulted (told hserve)
  · intro s width q r effects reason _ hserve
    exact told hserve

/-- **No interrupt is entered** by the fetching and executing of an instruction. -/
theorem not_tellsOfEntry_step (outlet : Outlet σ ε) (c : Cpu) (host : σ) :
    ∀ e ∈ (c.counted.step outlet host).effects, ¬ TellsOfEntry e := by
  have nothing : ∀ e ∈ ([] : List Effect), ¬ TellsOfEntry e :=
    fun e he => absurd he List.not_mem_nil
  cases hbyte : c.processor.memory.get? c.processor.pc with
  | none =>
    rw [step_of_not_covers (Memory.get?_eq_none_iff.mp hbyte)]
    exact not_tellsOfEntry_faulted nothing
  | some opcode =>
    cases hi : c.table.get opcode with
    | none =>
      rw [step_of_illegal hbyte hi]
      exact not_tellsOfEntry_faulted nothing
    | some i =>
      rw [step_of_instruction hbyte hi]
      exact not_tellsOfEntry_perform outlet _ i host

/-- **Exactly an entry:** let the processor be running.

    On a full block, with interrupts enabled, a line pending, the program counter a byte and room
    for nine bytes, the tick enters the interrupt of the lowest pending line: it leaves what
    `EnteredFrom` says, without that line among the pending ones, tells of the entry, and does
    nothing else to the outside.  The handler starts at the old vector exactly if the frame does not
    lie over it or has the same byte there, and so in any case with a stack below the vector table.

    If interrupts are disabled or no line is pending, the tick fetches and executes, and enters
    nothing. -/
theorem tick_of_due_interrupt (outlet : Outlet σ ε) (host : σ)
    (hrun : c.processor.halted = false) :
    (c.processor.memory.Full → c.processor.interruptsEnabled = true →
      c.processor.pendingLines ≠ 0 → 0 ≤ c.processor.pc ∧ c.processor.pc ≤ 255 →
      9 ≤ c.processor.sp.toNat →
      ∃ line back q, lowestLine? c.processor.pendingLines = some line ∧
        (back.toNat : Int) = c.processor.pc ∧
        c.processor.EnteredFrom line back q ∧
        (∀ k, hasLine (q.registers.get .status) k =
          (hasLine (c.processor.registers.get .status) k && decide (k ≠ line))) ∧
        (∀ old : UInt8, c.processor.memory.get? (vectorTable + (line : Nat)) = some old →
          (q.pc = old.toNat ↔ (c.processor.sp.toNat : Int) ≤ vectorTable + (line : Nat) ∨
            vectorTable + (line : Nat) < (c.processor.sp.toNat : Int) - 9 ∨
            ∃ k : Nat, (c.processor.sp.toNat : Int) - 1 - k = vectorTable + (line : Nat) ∧
              (c.processor.entryFrame line back)[k]? = some old) ∧
          (c.processor.sp.toNat ≤ 0xf8 → q.pc = old.toNat)) ∧
        c.tick outlet host =
          ⟨(c.entering line).withProcessor q, host, [c.entryNotice line], none⟩) ∧
    (c.processor.interruptsEnabled = false ∨ c.processor.pendingLines = 0 →
      c.tick outlet host = c.counted.step outlet host ∧
        ∀ e ∈ (c.tick outlet host).effects, ¬ TellsOfEntry e) := by
  constructor
  · intro hfull hon hpending hpc hroom
    obtain ⟨line, hline⟩ : ∃ line, lowestLine? c.processor.pendingLines = some line := by
      cases h : lowestLine? c.processor.pendingLines with
      | none => exact absurd (lowestLine?_eq_none_iff.mp h) hpending
      | some line => exact ⟨line, rfl⟩
    obtain ⟨back, hback⟩ : ∃ back : UInt8, (back.toNat : Int) = c.processor.pc := by
      refine ⟨UInt8.ofNat c.processor.pc.toNat, ?_⟩
      rw [UInt8.toNat_ofNat']
      omega
    obtain ⟨q, henter, hq⟩ := Processor.exists_enteredFrom line hfull hback hroom
    refine ⟨line, back, q, hline, hback, hq, hq.hasLine_eq, ?_, ?_⟩
    · intro old hold
      exact ⟨hq.pc_eq_iff hold, hq.pc_eq_of_le hold⟩
    · exact tick_of_entered hrun ((Processor.nextLine?_of_enabled hon).trans hline) henter
  · intro hidle
    have hstep : c.tick outlet host = c.counted.step outlet host :=
      tick_of_idle hrun (Processor.nextLine?_eq_none_iff.mpr hidle)
    refine ⟨hstep, ?_⟩
    rw [hstep]
    exact not_tellsOfEntry_step outlet c host

/-- A stack that reaches into the vector table: the saved register 0 lies over the vector of line 2,
    and the handler starts there.  With interrupts disabled the same processor enters nothing. -/
theorem tick_of_due_interrupt_over_vector :
    let c : Cpu := { processor := {
      registers := ⟨#v[0x55, 2, 3, 4, 5, 0x14, 0x17, 0xfc]⟩, pc := 0x41, memory := .holding [] } }
    let d : Cpu := { c with processor := { c.processor with interruptsEnabled := false } }
    let outlet : Outlet Unit String := .silent Unit String
    (∃ q, c.tick outlet () =
        ⟨(c.entering 2).withProcessor q, (), [c.entryNotice 2], none⟩ ∧
      q.pc = 0x55 ∧ q.memory.get? 0xfb = some 0x41 ∧ q.memory.get? 0xf4 = some 0x13 ∧
      q.memory.get? 0xf3 = some 0xf3 ∧
      q.registers = ⟨#v[0x55, 2, 3, 4, 5, 0x14, 0x13, 0xf3]⟩) ∧
    d.tick outlet () = d.counted.step outlet () := by
  intro c d outlet
  constructor
  · obtain ⟨line, back, q, hline, hback, hq, _, _, htick⟩ :=
      (tick_of_due_interrupt (c := c) outlet () rfl).1 (Memory.full_holding _) rfl (by decide)
        (by decide) (by decide)
    obtain rfl : line = 2 := Option.some.inj
      (hline.symm.trans (show lowestLine? c.processor.pendingLines = some 2 by decide))
    obtain rfl : back = 0x41 := UInt8.toNat_inj.mp (Int.ofNat_inj.mp hback)
    have hover : q.memory.get? (vectorTable + ((2 : Register) : Nat)) = some 0x55 :=
      hq.stored 1 (by decide)
    have hvector := hq.vector
    rw [hover] at hvector
    refine ⟨q, htick, (Option.some.inj hvector).symm, hq.stored 0 (by decide), ?_, ?_, ?_⟩
    · exact (hq.stored 7 (by decide)).trans (by decide)
    · exact (hq.stored 8 (by decide)).trans (by decide)
    · exact hq.registers_eq.trans (by decide)
  · exact ((tick_of_due_interrupt (c := d) outlet () rfl).2 (.inl rfl)).1

end Cpu

end Ls8
