import Ls8.Instruction

/-
  The opcode table: which instruction a fetched byte selects.

  A table has a slot for every byte.  An instruction goes into the slot of its opcode, and only
  into an empty one.

  Main statements: a registered instruction is found under its opcode and nothing else changes
  (`get_register`), and registering fails exactly on a slot that is taken (`register_isOk_iff`).
-/

namespace Ls8

/-- A slot for every byte, empty or with the instruction of that opcode. -/
structure OpcodeTable where
  slots : Vector (Option Instruction) 256

namespace OpcodeTable

/-- The table without instructions. -/
def empty : OpcodeTable := ⟨Vector.replicate 256 none⟩

/-- The instruction that a byte selects. -/
def get (t : OpcodeTable) (opcode : UInt8) : Option Instruction :=
  have := opcode.toNat_lt
  t.slots[opcode.toNat]

/-- The table with one more instruction, unless its opcode is taken. -/
def register (i : Instruction) (t : OpcodeTable) : Except InstructionError OpcodeTable :=
  match t.get i.opcode with
  | some holder => .error (.opcodeTaken i.opcode holder.mnemonic)
  | none => .ok ⟨t.slots.set i.opcode.toNat (some i) i.opcode.toNat_lt⟩

/-- The table with one more instruction, built from what was asked for. -/
def registerSpec (s : InstructionSpec) (t : OpcodeTable) : Except InstructionError OpcodeTable := do
  t.register (← Instruction.ofSpec s)

/-- Takes requests one after the other up to the first that fails; what was done before it
    stays. -/
def addAll {α : Type} (add : α → OpcodeTable → Except InstructionError OpcodeTable) :
    List α → OpcodeTable → OpcodeTable × Option InstructionError
  | [], t => (t, none)
  | x :: xs, t =>
    match add x t with
    | .ok t' => addAll add xs t'
    | .error e => (t, some e)

/-- Registers instructions one after the other up to the first conflict. -/
def registerAll (is : List Instruction) (t : OpcodeTable) : OpcodeTable × Option InstructionError :=
  addAll register is t

/-- **The table of a list of instructions,** if no two share an opcode. -/
def build (is : List Instruction) : Except InstructionError OpcodeTable :=
  match registerAll is empty with
  | (t, none) => .ok t
  | (_, some e) => .error e

/-- The instructions of a table in ascending order of opcode. -/
def entries (t : OpcodeTable) : List Instruction := t.slots.toList.filterMap id

/-- The table of the standard instruction set. -/
def standard : OpcodeTable := (registerAll Instruction.standard empty).1

/-! ## Laws -/

@[simp] theorem get_empty (opcode : UInt8) : empty.get opcode = none := by
  simp [get, empty]

/-- Registering fails exactly on a slot that is taken. -/
theorem register_isOk_iff {i : Instruction} {t : OpcodeTable} :
    (∃ t', t.register i = .ok t') ↔ t.get i.opcode = none := by
  unfold register
  split <;> simp_all

/-- **A registered instruction is found under its opcode,** and no other slot changes. -/
theorem get_register {i : Instruction} {t t' : OpcodeTable} (h : t.register i = .ok t')
    (opcode : UInt8) : t'.get opcode = if opcode = i.opcode then some i else t.get opcode := by
  unfold register at h
  split at h
  · cases h
  · cases h
    simp only [get, Vector.getElem_set]
    by_cases ho : opcode = i.opcode
    · rw [if_pos ho, if_pos (by rw [ho])]
    · rw [if_neg ho, if_neg fun he => ho (UInt8.toNat_inj.mp he.symm)]

/-- The standard set has no conflicts. -/
theorem registerAll_standard : (registerAll Instruction.standard empty).2 = none := by
  decide +kernel

end OpcodeTable

end Ls8
