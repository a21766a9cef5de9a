import Ls8.Processor

/-
  The stack.

  The stack grows downwards from the byte below the stack pointer.  Each access moves the pointer
  by one and checks that it does not leave the address space; the order of checks and writes is
  part of the rule, since what was done before a fault stays:

    * a push first checks the pointer, then lowers it, then stores;
    * saving a register reads the register after the pointer was lowered, so saving register 7
      stores the lowered pointer;
    * a pop first writes its destination and raises the pointer after that, so popping into
      register 7 leaves the pointer one above the popped value.
-/

namespace Ls8.Processor

/-- Makes room for one byte. -/
def lowerSp : Step Unit := fun p =>
  if p.sp = 0 then .error (.stack .overflow) p
  else .ok () (p.withRegister .sp (p.sp - 1))

/-- Gives the room of one byte back. -/
def raiseSp : Step Unit := fun p =>
  if p.sp = 0xff then .error (.stack .underflow) p
  else .ok () (p.withRegister .sp (p.sp + 1))

/-- Stores a byte where the stack pointer points. -/
def storeTop (b : UInt8) : Step Unit := fun p => storeByte p.sp.toNat b p

/-- The byte where the stack pointer points. -/
def top : Step UInt8 := fun p => readByte p.sp.toNat p

/-- Pushes a byte. -/
def pushByte (b : UInt8) : Step Unit := do
  lowerSp
  storeTop b

/-- Pushes an integer, which has to be a byte; this is checked before the pointer. -/
def push (value : Int) : Step Unit :=
  match toByte? value with
  | some b => pushByte b
  | none => throw (.operand (.stackValue value))

/-- Pushes the register of an index, read after the pointer was lowered. -/
def pushRegister (index : Int) : Step Unit := do
  lowerSp
  storeTop (← readRegister index)

/-- Pops into the register of an index, written before the pointer is raised. -/
def popInto (index : Int) : Step Unit := do
  setRegister index (← top)
  raiseSp

/-- Pops into the program counter. -/
def popPc : Step Unit := do
  jump (← top).toNat
  raiseSp

end Ls8.Processor
