import Ls8.Text.Numeral

/-
  Instructions: what the machine can do, and how a byte selects it.

  An operation is what is done; an instruction is an entry of an instruction set: the byte that
  selects it, the name shown in logs, the number of bytes it occupies, and its operation.
-/

namespace Ls8

/-- The operations of the machine. -/
inductive Operation where
  | nop | ldi | mul | prn | pra | st | push | pop | add | call | ret | jmp | jeq | jne | cmp | iret
  | hlt
  deriving DecidableEq, Repr

/-- An instruction as someone asks for it; its numbers may be out of range. -/
structure InstructionSpec where
  opcode : Int
  mnemonic : String
  width : Int
  operation : Operation
  setsPc : Bool

/-- An entry of an instruction set. -/
structure Instruction where
  opcode : UInt8
  mnemonic : String
  width : Nat
  operation : Operation
  /-- Whether the operation chooses the next address itself. -/
  setsPc : Bool
  width_pos : 1 ≤ width
  width_le : width ≤ 3
  deriving DecidableEq, Repr

/-- Why an instruction set was refused. -/
inductive InstructionError where
  /-- An opcode that is not a byte. -/
  | opcodeRange (opcode : Int)
  /-- A width other than one, two or three bytes. -/
  | widthRange (width : Int)
  /-- An opcode that an earlier instruction has. -/
  | opcodeTaken (opcode : UInt8) (holder : String)
  deriving DecidableEq, Repr

/-- The text of an instruction error. -/
def InstructionError.message : InstructionError → String
  | .opcodeRange n => "opcode out of range: " ++ Text.decimal n
  | .widthRange n => "width out of range: " ++ Text.decimal n
  | .opcodeTaken opcode holder =>
    "opcode " ++ Text.address opcode.toNat ++ " already registered as " ++ holder

/-- The instruction asked for; the opcode is checked before the width. -/
def Instruction.ofSpec (s : InstructionSpec) : Except InstructionError Instruction :=
  if 0 ≤ s.opcode ∧ s.opcode ≤ 255 then
    if h : 1 ≤ s.width ∧ s.width ≤ 3 then
      .ok {
        opcode := UInt8.ofNat s.opcode.toNat
        mnemonic := s.mnemonic
        width := s.width.toNat
        operation := s.operation
        setsPc := s.setsPc
        width_pos := by omega
        width_le := by omega }
    else .error (.widthRange s.width)
  else .error (.opcodeRange s.opcode)

/-! ## The standard set -/

/-- An instruction of one byte. -/
def Instruction.single (opcode : UInt8) (mnemonic : String) (operation : Operation)
    (setsPc : Bool) : Instruction :=
  ⟨opcode, mnemonic, 1, operation, setsPc, by decide, by decide⟩

/-- An instruction with one operand byte. -/
def Instruction.unary (opcode : UInt8) (mnemonic : String) (operation : Operation)
    (setsPc : Bool) : Instruction :=
  ⟨opcode, mnemonic, 2, operation, setsPc, by decide, by decide⟩

/-- An instruction with two operand bytes. -/
def Instruction.binary (opcode : UInt8) (mnemonic : String) (operation : Operation) :
    Instruction :=
  ⟨opcode, mnemonic, 3, operation, false, by decide, by decide⟩

/-- **The standard instruction set,** in ascending order of opcode. -/
def Instruction.standard : List Instruction := [
  .single 0x00 "NOP" .nop false,
  .binary 0x04 "LDI" .ldi,
  .binary 0x05 "MUL" .mul,
  .unary 0x06 "PRN" .prn false,
  .unary 0x07 "PRA" .pra false,
  .binary 0x09 "ST" .st,
  .unary 0x0a "PUSH" .push false,
  .unary 0x0b "POP" .pop false,
  .binary 0x0c "ADD" .add,
  .unary 0x0f "CALL" .call true,
  .single 0x10 "RET" .ret true,
  .unary 0x11 "JMP" .jmp true,
  .unary 0x13 "JEQ" .jeq true,
  .unary 0x14 "JNE" .jne true,
  .binary 0x16 "CMP" .cmp,
  .single 0x1a "IRET" .iret true,
  .single 0x1b "HLT" .hlt true]

end Ls8
