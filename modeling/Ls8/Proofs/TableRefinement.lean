import Ls8.Proofs.History
import Ls8.Proofs.InstructionTable
import Ls8.Proofs.Registration

/-
  A tick refines the instruction table.

  The reference of the machine lists its opcodes: the bits, the mnemonic, the bytes that the
  instruction occupies.  `Operation.Listed` is that list, and it is put here a second time, apart from
  the standard set that the machine is built from.  The two are the same list
  (`mem_standard_iff`), so the slot of an opcode holds what is listed for it and nothing else
  (`get_standard_iff`).

  A tick that executes an instruction of the standard set, and neither faults nor fails, leads where
  the row of the operation listed for the fetched opcode leads (`Processor.Row`).  Besides that it
  keeps the fetched byte and counts itself.  A text that the row puts out goes to the host, whose
  requests are served.

  The engine never looks at the width of an entry of the instruction set: each operation moves on by
  a number of its own.  That the two agree is a fact about the list and the rows together
  (`pc_of_row`, `Operation.Listed.stride_eq`).

  Main statement: a tick follows the row of its opcode (`tick_follows_row`).
-/

namespace Ls8

variable {σ ε : Type}

/-! ## The list of opcodes -/

/-- **The list of opcodes:** the bits that select an operation, its mnemonic, how many bytes the
    instruction occupies, and whether it chooses the next address itself. -/
inductive Operation.Listed : Operation → UInt8 → String → Nat → Bool → Prop where
  | nop : Listed .nop 0b00000000 "NOP" 1 false
  | ldi : Listed .ldi 0b00000100 "LDI" 3 false
  | mul : Listed .mul 0b00000101 "MUL" 3 false
  | prn : Listed .prn 0b00000110 "PRN" 2 false
  | pra : Listed .pra 0b00000111 "PRA" 2 false
  | st : Listed .st 0b00001001 "ST" 3 false
  | push : Listed .push 0b00001010 "PUSH" 2 false
  | pop : Listed .pop 0b00001011 "POP" 2 false
  | add : Listed .add 0b00001100 "ADD" 3 false
  | call : Listed .call 0b00001111 "CALL" 2 true
  | ret : Listed .ret 0b00010000 "RET" 1 true
  | jmp : Listed .jmp 0b00010001 "JMP" 2 true
  | jeq : Listed .jeq 0b00010011 "JEQ" 2 true
  | jne : Listed .jne 0b00010100 "JNE" 2 true
  | cmp : Listed .cmp 0b00010110 "CMP" 3 false
  | iret : Listed .iret 0b00011010 "IRET" 1 true
  | hlt : Listed .hlt 0b00011011 "HLT" 1 true

/-- **The standard set is the list of opcodes.** -/
theorem Instruction.mem_standard_iff {i : Instruction} :
    i ∈ standard ↔ i.operation.Listed i.opcode i.mnemonic i.width i.setsPc := by
  constructor
  · intro h
    simp only [standard, List.mem_cons, List.not_mem_nil, or_false] at h
    rcases h with rfl | rfl | rfl | rfl | rfl | rfl | rfl | rfl | rfl | rfl | rfl | rfl | rfl | rfl |
      rfl | rfl | rfl <;> constructor
  · obtain ⟨opcode, mnemonic, width, operation, setsPc, _, _⟩ := i
    rintro ⟨⟩ <;> simp [standard, single, unary, binary]

/-- **The slot of an opcode holds what is listed for it,** and nothing else. -/
theorem OpcodeTable.get_standard_iff {opcode : UInt8} {i : Instruction} :
    standard.get opcode = some i ↔
      i.opcode = opcode ∧ i.operation.Listed opcode i.mnemonic i.width i.setsPc := by
  have hfits : empty.Fits Instruction.standard := registerAll_eq_none_iff.mp registerAll_standard
  obtain ⟨t, hall, hholds⟩ := exists_registerAll hfits
  have hget : standard.get opcode = some i ↔ i ∈ Instruction.standard ∧ i.opcode = opcode := by
    rw [standard, hall, hholds.get_eq_some_iff hfits, get_empty]
    exact or_iff_left nofun
  rw [hget, Instruction.mem_standard_iff, and_comm]
  exact and_congr_right fun hopcode => by rw [hopcode]

/-! ## Widths -/

namespace Operation

/-- How far an operation goes on if it does not choose the next address itself. -/
def stride : Operation → Option Nat
  | .nop => some 1
  | .prn | .pra | .push | .pop | .jeq | .jne => some 2
  | .ldi | .mul | .st | .add | .cmp => some 3
  | .call | .ret | .jmp | .iret | .hlt => none

variable {op : Operation} {opcode : UInt8} {mnemonic : String} {width : Nat} {setsPc : Bool}

/-- **The listed widths** are the strides of the operations. -/
theorem Listed.stride_eq (h : op.Listed opcode mnemonic width setsPc)
    (hop : setsPc = false ∨ op = .jeq ∨ op = .jne) : op.stride = some width := by
  cases h with
  | call | ret | jmp | iret | hlt => simp at hop
  | _ => rfl

/-- The conditional jumps are marked as choosing the next address themselves. -/
theorem Listed.not_jump (h : op.Listed opcode mnemonic width false) : op ≠ .jeq ∧ op ≠ .jne := by
  cases h <;> decide

/-- An opcode is listed for one operation only. -/
theorem Listed.operation_eq {other : Operation} {name : String} {size : Nat} {jumps : Bool}
    (h : op.Listed opcode mnemonic width setsPc) (h' : other.Listed opcode name size jumps) :
    op = other := by
  generalize hsame : opcode = same at h'
  cases h <;> cases h' <;> first | rfl | exact absurd hsame (by decide)

end Operation

namespace Processor

variable {p q r : Processor} {op : Operation} {text more : Option String}

/-- A conditional jump that is not taken. -/
def Passes (p : Processor) (op : Operation) : Prop :=
  (op = .jeq ∧ p.equal ≠ some true) ∨ (op = .jne ∧ p.equal ≠ some false)

/-- **A row goes on by the stride of its operation,** unless it is a conditional jump that is
    taken. -/
theorem pc_of_row {width : Nat} (h : Row p op q text) (hwidth : op.stride = some width)
    (hpasses : op ≠ .jeq ∧ op ≠ .jne ∨ p.Passes op) : q.pc = p.pc + width := by
  cases h with
  | call _ _ _ _ | ret _ _ | jmp _ | iret _ _ _ _ _ | hlt => exact nomatch hwidth
  | jeqTaken heq _ => simp [Passes, heq] at hpasses
  | jneTaken heq _ => simp [Passes, heq] at hpasses
  | _ =>
    obtain rfl := Option.some.inj hwidth
    rfl

end Processor

/-! ## Ticks -/

/-- What becomes of a text, if there is one. -/
def Outlet.take (outlet : Outlet σ ε) (host : σ) : Option String → σ × List (Request ε)
  | none => (host, [])
  | some s => outlet.deliver host s

namespace Cpu

variable {outlet : Outlet σ ε} {c : Cpu} {host : σ}

/-- The end of a tick adds no output. -/
theorem filterMap_output?_completed (effects : List Effect) :
    (c.completed host effects : Turn σ ε).effects.filterMap Effect.output? =
      effects.filterMap Effect.output? := by
  rw [completed]
  split
  · simp [List.filterMap_append, Effect.output?]
  · rfl

/-- A fault is reported. -/
theorem report_mem_faulted (effects : List Effect) (f : Fault) :
    .report f.message ∈ (c.faulted host effects f : Turn σ ε).effects := by
  simp [effects_faulted]

/-- An instruction that ends well follows its row. -/
theorem perform_follows_row {i : Instruction}
    (hreturned : (c.perform outlet i host).failure = none)
    (hfaultless : ∀ text, .report text ∉ (c.perform outlet i host).effects) :
    ∃ q text, Processor.Row c.processor i.operation q text ∧
      (c.perform outlet i host).cpu =
        c.withProcessor (q.serve (outlet.take host text).2).1 ∧
      (c.perform outlet i host).host = (outlet.take host text).1 ∧
      (c.perform outlet i host).effects.filterMap Effect.output? = text.toList := by
  revert hreturned hfaultless
  refine perform_cases ?_ ?_ ?_ ?_ ?_
  · intro f q _ _ hfaultless
    exact absurd (report_mem_faulted _ f) (hfaultless _)
  · intro q h _ _
    refine ⟨q, none, Processor.row_of_execute h, cpu_completed _, host_completed _, ?_⟩
    rw [filterMap_output?_completed]
    rfl
  · intro s width q r effects h hserve _ _
    have hland := Processor.serve_withPc (outlet.deliver host s).2 q (q.pc + width)
    have houtput := Processor.filterMap_serve (rfl : Effect.output? .stopClock = none)
      (outlet.deliver host s).2 q
    have hpc := Processor.pc_serve hserve
    rw [hserve] at hland houtput
    refine ⟨_, some s, Processor.row_of_execute h, ?_, host_completed _, ?_⟩
    · rw [cpu_completed]
      show _ = c.withProcessor (Processor.serve (outlet.deliver host s).2
        { q with pc := q.pc + width }).1
      rw [hland, hpc]
    · rw [filterMap_output?_completed]
      show s :: effects.filterMap Effect.output? = [s]
      rw [houtput]
  · intro s width q r effects f _ _ _ hfaultless
    exact absurd (report_mem_faulted _ f) (hfaultless _)
  · exact fun _ _ _ _ _ _ _ _ hreturned _ => nomatch hreturned

/-- **A tick whose operation has a row without a text** leads there. -/
theorem Executes.tick_of_row {op : Operation} (h : c.Executes op) {q : UInt8 → Processor}
    (hrow : ∀ ir, Processor.Row { c.processor with ir := ir } op (q ir) none)
    (outlet : Outlet σ ε) (host : σ) :
    ∃ ir, (c.tick outlet host).cpu.processor = q ir ∧ (c.tick outlet host).cpu.fault = c.fault := by
  obtain ⟨opcode, i, rfl, htick⟩ := h.tick_eq outlet host
  have hexec := Processor.execute_of_silent_row (hrow opcode)
  rw [htick, perform_of_silent (c := c.fetching opcode i.mnemonic) hexec, cpu_completed]
  exact ⟨opcode, rfl, rfl⟩

/-- **A tick follows the row of its opcode.**  With the standard set, if no interrupt is due, a tick
    that neither faults nor fails fetches an opcode that is listed and leads where the row of its
    operation leads from there, which is one place only; the host takes the text of the row and has
    its requests served.  Nothing else changes but the count of ticks and the trace.  An instruction
    that is not marked as choosing the next address itself moves on by its width, and so does a
    conditional jump that is not taken. -/
theorem tick_follows_row (outlet : Outlet σ ε) (host : σ) (htable : c.table = .standard)
    (hrun : c.processor.halted = false)
    (hidle : c.processor.interruptsEnabled = false ∨ c.processor.pendingLines = 0)
    (hreturned : (c.tick outlet host).failure = none)
    (hfaultless : ∀ text, .report text ∉ (c.tick outlet host).effects) :
    let turn := c.tick outlet host
    ∃ opcode i q text, c.processor.memory.get? c.processor.pc = some opcode ∧
      i ∈ Instruction.standard ∧ i.opcode = opcode ∧
      i.operation.Listed opcode i.mnemonic i.width i.setsPc ∧
      Processor.Row { c.processor with ir := opcode } i.operation q text ∧
      (∀ r more, Processor.Row { c.processor with ir := opcode } i.operation r more →
        r = q ∧ more = text) ∧
      turn.cpu = { c with
        processor := (q.serve (outlet.take host text).2).1
        ticks := c.ticks + 1
        trace := turn.cpu.trace } ∧
      turn.host = (outlet.take host text).1 ∧
      turn.effects.filterMap Effect.output? = text.toList ∧
      (i.setsPc = false ∨ c.processor.Passes i.operation → q.pc = c.processor.pc + i.width) := by
  intro turn
  have hnone := Processor.nextLine?_eq_none_iff.mpr hidle
  have hstep : turn = c.counted.step outlet host := tick_of_idle hrun hnone
  cases hbyte : c.processor.memory.get? c.processor.pc with
  | none =>
    rw [tick_of_idle hrun hnone, step_of_not_covers (Memory.get?_eq_none_iff.mp hbyte)] at hfaultless
    exact absurd (report_mem_faulted _ _) (hfaultless _)
  | some opcode =>
    cases hi : c.table.get opcode with
    | none =>
      rw [tick_of_idle hrun hnone, step_of_illegal hbyte hi] at hfaultless
      exact absurd (report_mem_faulted _ _) (hfaultless _)
    | some i =>
      rw [tick_of_idle hrun hnone, step_of_instruction hbyte hi] at hreturned hfaultless
      rw [step_of_instruction hbyte hi] at hstep
      obtain ⟨q, text, hrow, hcpu, hhost, heffects⟩ := perform_follows_row hreturned hfaultless
      rw [htable] at hi
      obtain ⟨rfl, hlisted⟩ := OpcodeTable.get_standard_iff.mp hi
      rw [hstep]
      refine ⟨i.opcode, i, q, text, rfl, Instruction.mem_standard_iff.mpr hlisted, rfl, hlisted, hrow,
        fun r more hother => Processor.Row.unique hother hrow, ?_, hhost, heffects, fun hwidth => ?_⟩
      · rw [hcpu]
        rfl
      · -- the width that is listed is the one the operation moves by
        have hstride : i.operation.stride = some i.width := by
          refine hlisted.stride_eq ?_
          rcases hwidth with hsets | ⟨hjump, _⟩ | ⟨hjump, _⟩
          · exact .inl hsets
          · exact .inr (.inl hjump)
          · exact .inr (.inr hjump)
        have hpasses : i.operation ≠ .jeq ∧ i.operation ≠ .jne ∨ c.processor.Passes i.operation := by
          rcases hwidth with hsets | hpasses
          · exact .inl (hsets ▸ hlisted).not_jump
          · exact .inr hpasses
        exact Processor.pc_of_row (p := (c.fetching i.opcode i.mnemonic).processor) hrow hstride
          hpasses

/-- A push of the stack pointer, with a line pending that is masked out: the pointer goes down to
    `0xf7`, and the byte stored there is the pointer as it was. -/
theorem tick_follows_row_of_push :
    let c : Cpu := { processor := {
      registers := ⟨#v[0, 0, 0, 0, 0, 0, 0x01, 0xf8]⟩, memory := .holding [0x0a, 0x07] } }
    let turn : Turn Unit String := c.tick (.silent Unit String) ()
    turn.cpu.processor.ir = 0x0a ∧ turn.cpu.processor.pc = 2 ∧ turn.cpu.processor.sp = 0xf7 ∧
      turn.cpu.processor.memory.get? 0xf7 = some 0xf8 ∧
      turn.effects.filterMap Effect.output? = [] := by
  intro c turn
  have heffects : turn.effects = [.diagnostic (.fetched 0 0x0a "PUSH")] := by decide +kernel
  obtain ⟨opcode, i, q, text, hbyte, _, _, hlisted, hrow, _, hcpu, _, houtput, _⟩ :=
    tick_follows_row (c := c) (.silent Unit String) () rfl rfl (.inr (by decide)) (by decide +kernel)
      (by
        intro text htext
        rw [show (c.tick (.silent Unit String) ()).effects = _ from heffects] at htext
        simp at htext)
  obtain rfl : opcode = 0x0a :=
    Option.some.inj (hbyte.symm.trans (by decide +kernel : c.processor.memory.get? _ = some 0x0a))
  have hcpu : turn.cpu.processor = (q.serve ((Outlet.silent Unit String).take () text).2).1 :=
    congrArg Cpu.processor hcpu
  rw [hlisted.operation_eq .push] at hrow
  cases hrow with
  | @push r m h1 hsp hm =>
    have hoperand : c.processor.memory.get? 1 = some 0x07 := by decide +kernel
    obtain rfl : r = .sp := h1.unique hoperand
    have hbelow : (0xf7 : Int) = ((c.processor.sp - 1).toNat : Nat) := by decide
    have hstored : m.get? 0xf7 = some 0xf8 := (Memory.get?_store hm 0xf7).trans (if_pos hbelow)
    have hlowered : (c.processor.registers.set .sp (c.processor.sp - 1)).get .sp = 0xf7 := by
      decide
    rw [hcpu]
    exact ⟨rfl, rfl, hlowered, hstored, houtput⟩

end Cpu

end Ls8
