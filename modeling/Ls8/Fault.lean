import Ls8.Memory

/-
  What can go wrong while the processor works.

  A fault is a cause, with the data its text needs; `Fault.message` is the only place where the
  wording stands.
-/

namespace Ls8

/-- An operand that means nothing. -/
inductive OperandError where
  /-- No register has this index. -/
  | registerIndex (index : Int)
  /-- A value that does not fit one byte of the stack. -/
  | stackValue (value : Int)
  /-- No interrupt line has this number. -/
  | interruptLine (line : Int)
  deriving DecidableEq, Repr

/-- The stack pointer would leave the address space. -/
inductive StackError where
  | overflow
  | underflow
  deriving DecidableEq, Repr

/-- **Everything that stops a processor,** other than its own halt instruction. -/
inductive Fault where
  | memory (cause : MemoryError)
  /-- A byte was fetched that the instruction table does not hold. -/
  | illegalOpcode (address : Int) (opcode : UInt8)
  | operand (cause : OperandError)
  | stack (cause : StackError)
  deriving DecidableEq, Repr

/-- The text of an operand error. -/
def OperandError.message : OperandError → String
  | .registerIndex i => "register index " ++ Text.decimal i ++ " out of range (0-7)"
  | .stackValue v => "value " ++ Text.plainHex v ++ " does not fit a stack slot"
  | .interruptLine n => "interrupt line " ++ Text.decimal n ++ " out of range (0-7)"

/-- The text of a stack error. -/
def StackError.message : StackError → String
  | .overflow => "stack overflow"
  | .underflow => "stack underflow"

/-- The text of a fault. -/
def Fault.message : Fault → String
  | .memory e => e.message
  | .illegalOpcode a b =>
    "Invalid instruction at address " ++ Text.address a ++ ": " ++ Text.byteBinary b
  | .operand e => e.message
  | .stack e => e.message

end Ls8
