import Ls8.Alu
import Ls8.Instruction
import Ls8.Stack

/-
  What each operation does, and how an interrupt is entered.

  Operand bytes follow the opcode; they are read in order, and a register index is checked as soon
  as its byte is read, unless it names the destination.  An operation that does not choose the next
  address itself moves on by its own width as its last act.

  The two output operations only say which text goes out (`Output`); handing it to the host is the
  business of the caller, who moves on after the host has taken it.
-/

namespace Ls8

/-- What an operation leaves to its caller. -/
inductive Output where
  /-- Nothing. -/
  | silent
  /-- A text for the host; the processor moves on by `width` once it is taken. -/
  | text (s : String) (width : Nat)
  deriving DecidableEq, Repr

namespace Processor

/-- Arithmetic: the destination index is read first but checked last. -/
def arithmetic (op : AluOperation) : Step Unit := do
  let target ← operand 1
  let b ← registerOperand 2
  let a ← readRegister target.toNat
  setRegister target.toNat (op.apply a b)
  advance 3

/-- Comparison: whether every bit of the first register is set in the second. -/
def compare : Step Unit := do
  let a ← registerOperand 1
  let b ← registerOperand 2
  modify fun p => { p with equal := some (a &&& ~~~ b == 0) }
  advance 3

/-- A jump that is taken if the last comparison had the wanted outcome; its operand is read only
    then. -/
def jumpIf (wanted : Bool) : Step Unit := do
  if (← get).equal = some wanted then
    jump (← registerOperand 1).toNat
  else
    advance 2

/-- The return from an interrupt: the registers from the last to the first, then the program
    counter; interrupts are enabled again only if all of that succeeded. -/
def returnFromInterrupt : Step Unit := do
  [7, 6, 5, 4, 3, 2, 1, 0].forM popInto
  popPc
  modify fun p => { p with interruptsEnabled := true }

/-- **The effect of each operation.** -/
def execute : Operation → Step Output
  | .nop => do
    advance 1
    return .silent
  | .ldi => do
    let target ← operand 1
    let value ← operand 2
    setRegister target.toNat value
    advance 3
    return .silent
  | .add => do
    arithmetic .add
    return .silent
  | .mul => do
    arithmetic .mul
    return .silent
  | .cmp => do
    compare
    return .silent
  | .prn => do
    let value ← registerOperand 1
    return .text (Text.decimal value.toNat) 2
  | .pra => do
    let value ← registerOperand 1
    return .text (String.singleton (Char.ofNat value.toNat)) 2
  | .push => do
    push (← registerOperand 1).toNat
    advance 2
    return .silent
  | .pop => do
    popInto (← operand 1).toNat
    advance 2
    return .silent
  | .call => do
    let target ← registerOperand 1
    push ((← get).pc + 2)
    jump target.toNat
    return .silent
  | .ret => do
    popPc
    return .silent
  | .jmp => do
    jump (← registerOperand 1).toNat
    return .silent
  | .jeq => do
    jumpIf true
    return .silent
  | .jne => do
    jumpIf false
    return .silent
  | .st => do
    let a ← registerOperand 1
    let value ← registerOperand 2
    storeByte a.toNat value
    advance 3
    return .silent
  | .iret => do
    returnFromInterrupt
    return .silent
  | .hlt => do
    modify fun p => { p with halted := true }
    return .silent

/-! ## Interrupts -/

/-- Where the addresses of the interrupt handlers stand, one byte per line. -/
def vectorTable : Int := 0xf8

/-- Disables interrupts and takes a line out of the pending ones. -/
def acknowledge (line : Register) : Step Unit := fun p =>
  .ok () { p with
    interruptsEnabled := false
    registers := p.registers.set .status (p.registers.get .status &&& ~~~ lineBit line) }

/-- **The entry of an interrupt:** the line is acknowledged, then the program counter and all
    registers are saved on the stack, and the processor goes on at the line's handler. -/
def enterInterrupt (line : Register) : Step Unit := do
  acknowledge line
  push (← get).pc
  [0, 1, 2, 3, 4, 5, 6, 7].forM pushRegister
  jump (← readByte (vectorTable + (line : Nat))).toNat

end Processor

end Ls8
