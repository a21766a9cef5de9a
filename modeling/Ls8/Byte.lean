/-
  Bytes and integers.

  Addresses and values come from the outside as integers of any size.  An integer either fits a
  byte (`toByte?`) or is reduced modulo 256 (`UInt8.ofInt`); the two agree where both apply.
-/

namespace Ls8

/-- The byte that an integer is, if it lies in 0..255. -/
def toByte? (x : Int) : Option UInt8 :=
  if 0 ≤ x ∧ x ≤ 255 then some (UInt8.ofNat x.toNat) else none

/-- An integer is a byte exactly if it lies in 0..255. -/
theorem toByte?_eq_none_iff {x : Int} : toByte? x = none ↔ x < 0 ∨ 255 < x := by
  unfold toByte?
  split <;> simp <;> omega

theorem toByte?_eq_some_iff {x : Int} {b : UInt8} : toByte? x = some b ↔ (b.toNat : Int) = x := by
  have hb := b.toNat_lt
  unfold toByte?
  split
  · rename_i h
    rw [Option.some.injEq, ← UInt8.toNat_inj, UInt8.toNat_ofNat']
    omega
  · rename_i h
    simp only [reduceCtorEq, false_iff]
    omega

/-- A byte read as an integer is that byte again. -/
@[simp] theorem toByte?_toNat (b : UInt8) : toByte? (b.toNat : Int) = some b :=
  toByte?_eq_some_iff.mpr rfl

/-- Reduction modulo 256 in terms of integers. -/
theorem toNat_ofInt (x : Int) : ((UInt8.ofInt x).toNat : Int) = x % 256 := by
  have h : (UInt8.ofInt x).toNat = (x % 256).toNat := by
    simp [UInt8.ofInt, UInt8.toNat_ofNat']
    omega
  omega

end Ls8
