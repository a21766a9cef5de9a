import Ls8.Text.Quoted

/-
  The arithmetic unit.

  It adds and multiplies bytes; results wrap modulo 256, as `UInt8` arithmetic does.  A request
  from outside names its operation and may bring integers of any size, of which only the low eight
  bits count.

  Main statement: the result is the sum or product of the integers modulo 256 (`toNat_apply`).
-/

namespace Ls8

/-- What the arithmetic unit can do. -/
inductive AluOperation where
  | add
  | mul
  deriving DecidableEq, Repr

namespace AluOperation

/-- The operation of a name. -/
def ofName? : String → Option AluOperation
  | "ADD" => some .add
  | "MUL" => some .mul
  | _ => none

/-- The result for two bytes. -/
def apply : AluOperation → UInt8 → UInt8 → UInt8
  | .add, a, b => a + b
  | .mul, a, b => a * b

/-- The same operation on integers, without a bound. -/
def exact : AluOperation → Int → Int → Int
  | .add, a, b => a + b
  | .mul, a, b => a * b

/-- **The result is the exact one modulo 256.** -/
theorem toNat_apply (op : AluOperation) (a b : UInt8) :
    ((op.apply a b).toNat : Int) = op.exact a.toNat b.toNat % 256 := by
  cases op
  · show (((a + b).toNat : Nat) : Int) = _
    rw [UInt8.toNat_add]
    rfl
  · show (((a * b).toNat : Nat) : Int) = _
    rw [UInt8.toNat_mul]
    rfl

end AluOperation

/-- A request named an operation that the unit does not have. -/
structure AluError where
  name : String
  deriving DecidableEq, Repr

/-- The text of a refused request. -/
def AluError.message (e : AluError) : String := "unsupported ALU operation " ++ Text.quote e.name

/-- A request by name, on the low eight bits of its operands. -/
def aluCompute (name : String) (a b : Int) : Except AluError UInt8 :=
  match AluOperation.ofName? name with
  | some op => .ok (op.apply (UInt8.ofInt a) (UInt8.ofInt b))
  | none => .error ⟨name⟩

end Ls8
