import Ls8.Fault
import Ls8.Register

/-
  The processor and the steps it is made of.

  A `Processor` is what instructions work on: the registers, the program counter, the flags and the
  memory.  A `Step` is a piece of work on it that either gives a result or ends in a fault; in both
  cases it leaves a processor behind, because what was done before a fault is not undone.

  The program counter is an integer: it may point past the last address, where the next fetch
  faults.

  The lemmas say when each step succeeds and what it leaves, so that a proof about an instruction
  never looks inside them.
-/

namespace Ls8

/-- What instructions work on. -/
structure Processor where
  registers : Registers := .initial
  pc : Int := 0
  /-- The byte fetched last. -/
  ir : UInt8 := 0
  interruptsEnabled : Bool := true
  /-- The outcome of the last comparison, if there was one. -/
  equal : Option Bool := none
  halted : Bool := false
  memory : Memory

/-- **A piece of work on a processor.**  It gives a result or a fault, and in either case the
    processor it leaves behind. -/
abbrev Step := EStateM Fault Processor

namespace Processor

/-- The stack pointer. -/
def sp (p : Processor) : UInt8 := p.registers.get .sp

/-- The processor with one register set. -/
def withRegister (p : Processor) (r : Register) (b : UInt8) : Processor :=
  { p with registers := p.registers.set r b }

/-- The lines that are pending and not masked out. -/
def pendingLines (p : Processor) : UInt8 := p.registers.get .status &&& p.registers.get .mask

/-- The line whose interrupt would be entered next: the lowest pending one, if interrupts are
    enabled. -/
def nextLine? (p : Processor) : Option Register :=
  if p.interruptsEnabled then lowestLine? p.pendingLines else none

/-- The processor with one more pending line. -/
def withPending (p : Processor) (line : Register) : Processor :=
  p.withRegister .status (p.registers.get .status ||| lineBit line)

/-- **A request for an interrupt,** which has to name a line. -/
def raise (p : Processor) (line : Int) : Except OperandError Processor :=
  match register? line with
  | some r => .ok (p.withPending r)
  | none => .error (.interruptLine line)

/-! ## Steps -/

/-- Reads the byte at an address. -/
def readByte (a : Int) : Step UInt8 := fun p =>
  match p.memory.read a with
  | .ok b => .ok b p
  | .error e => .error (.memory e) p

/-- Stores a byte at an address. -/
def storeByte (a : Int) (b : UInt8) : Step Unit := fun p =>
  match p.memory.store a b with
  | .ok m => .ok () { p with memory := m }
  | .error e => .error (.memory e) p

/-- Reads the register of an index. -/
def readRegister (index : Int) : Step UInt8 := fun p =>
  match register? index with
  | some r => .ok (p.registers.get r) p
  | none => .error (.operand (.registerIndex index)) p

/-- Sets the register of an index. -/
def setRegister (index : Int) (b : UInt8) : Step Unit := fun p =>
  match register? index with
  | some r => .ok () (p.withRegister r b)
  | none => .error (.operand (.registerIndex index)) p

/-- Goes on at an address. -/
def jump (a : Int) : Step Unit := fun p => .ok () { p with pc := a }

/-- Goes on `width` bytes further. -/
def advance (width : Nat) : Step Unit := fun p => .ok () { p with pc := p.pc + width }

/-- The operand byte `offset` bytes behind the opcode. -/
def operand (offset : Int) : Step UInt8 := fun p => readByte (p.pc + offset) p

/-- The value of the register that an operand byte names. -/
def registerOperand (offset : Int) : Step UInt8 := do
  let index ← operand offset
  readRegister index.toNat

/-! ## When steps succeed -/

/-- Reading gives a byte exactly where the memory has one, and changes nothing. -/
theorem readByte_ok_iff {a : Int} {p q : Processor} {b : UInt8} :
    readByte a p = .ok b q ↔ p.memory.get? a = some b ∧ q = p := by
  rw [← Memory.read_eq_ok_iff, readByte]
  cases p.memory.read a <;> simp [eq_comm]

theorem readByte_of_get? {a : Int} {p : Processor} {b : UInt8} (h : p.memory.get? a = some b) :
    readByte a p = .ok b p :=
  readByte_ok_iff.mpr ⟨h, rfl⟩

theorem readByte_of_not_covers {a : Int} {p : Processor} (h : ¬ p.memory.Covers a) :
    readByte a p = .error (.memory (p.memory.missed a)) p := by
  rw [readByte, Memory.read_eq_error_iff.mpr ⟨h, rfl⟩]

/-- Reading never changes the processor. -/
theorem readByte_state {a : Int} {p : Processor} :
    (∃ b, readByte a p = .ok b p) ∨ (∃ e, readByte a p = .error e p) := by
  unfold readByte
  split
  · exact .inl ⟨_, rfl⟩
  · exact .inr ⟨_, rfl⟩

theorem readRegister_of_register (r : Register) (p : Processor) :
    readRegister ((r : Nat) : Int) p = .ok (p.registers.get r) p := by
  rw [readRegister, register?_eq_some_iff.mpr rfl]

theorem setRegister_of_register (r : Register) (b : UInt8) (p : Processor) :
    setRegister ((r : Nat) : Int) b p = .ok () (p.withRegister r b) := by
  rw [setRegister, register?_eq_some_iff.mpr rfl]

end Processor

end Ls8
