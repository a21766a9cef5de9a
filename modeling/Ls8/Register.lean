import Ls8.Byte

/-
  The register file.

  Eight byte registers.  Three of them have a duty besides holding values: register 5 masks the
  interrupt lines, register 6 says which lines are pending, register 7 is the stack pointer.

  Main statements: a register set to a value holds it and all others keep theirs (`get_set`), and
  the lowest line of a byte is the one that is set while none below it is
  (`lowestLine?_eq_some_iff`).
-/

namespace Ls8

/-- The index of a register, also the number of an interrupt line. -/
abbrev Register := Fin 8

/-- The register that masks interrupt lines. -/
def Register.mask : Register := 5

/-- The register that holds the pending interrupt lines. -/
def Register.status : Register := 6

/-- The stack pointer. -/
def Register.sp : Register := 7

/-- The register of an index, if there is one. -/
def register? (index : Int) : Option Register :=
  if h : 0 ≤ index ∧ index < 8 then some ⟨index.toNat, by omega⟩ else none

theorem register?_eq_none_iff {i : Int} : register? i = none ↔ i < 0 ∨ 8 ≤ i := by
  unfold register?
  split <;> simp <;> omega

theorem register?_eq_some_iff {i : Int} {r : Register} :
    register? i = some r ↔ ((r : Nat) : Int) = i := by
  unfold register?
  split
  · rename_i h
    rw [Option.some.injEq, Fin.ext_iff]
    simp only
    omega
  · rename_i h
    simp only [reduceCtorEq, false_iff]
    omega

/-- The eight registers. -/
structure Registers where
  values : Vector UInt8 8
  deriving DecidableEq

namespace Registers

/-- The value of a register. -/
def get (rs : Registers) (r : Register) : UInt8 := rs.values[r]

/-- The file with one register set. -/
def set (rs : Registers) (r : Register) (b : UInt8) : Registers := ⟨rs.values.set r b⟩

/-- The registers in order. -/
def toList (rs : Registers) : List UInt8 := rs.values.toList

/-- **The registers at power-on:** all zero, but for the stack pointer. -/
def initial : Registers := ⟨#v[0, 0, 0, 0, 0, 0, 0, 0xf8]⟩

/-- Setting a register changes that register only. -/
theorem get_set (rs : Registers) (r s : Register) (b : UInt8) :
    (rs.set r b).get s = if s = r then b else rs.get s := by
  simp only [get, set, Fin.getElem_fin, Vector.getElem_set]
  by_cases h : s = r
  · rw [if_pos h, if_pos (by rw [h])]
  · rw [if_neg h, if_neg fun he => h (Fin.ext he.symm)]

@[simp] theorem get_set_self (rs : Registers) (r : Register) (b : UInt8) :
    (rs.set r b).get r = b := by
  rw [get_set, if_pos rfl]

theorem get_set_ne (rs : Registers) {r s : Register} (h : s ≠ r) (b : UInt8) :
    (rs.set r b).get s = rs.get s := by
  rw [get_set, if_neg h]

/-- Two files with the same values are the same. -/
theorem ext_get {a b : Registers} (h : ∀ r, a.get r = b.get r) : a = b := by
  obtain ⟨va⟩ := a
  obtain ⟨vb⟩ := b
  congr 1
  apply Vector.ext
  intro i hi
  exact h ⟨i, hi⟩

/-- Of two values set in turn the second one stays. -/
@[simp] theorem set_set (rs : Registers) (r : Register) (a b : UInt8) :
    (rs.set r a).set r b = rs.set r b := by
  apply ext_get
  intro s
  simp only [get_set]
  split <;> rfl

/-- Setting a register to the value it has changes nothing. -/
theorem set_eq_self {rs : Registers} {r : Register} {b : UInt8} (h : rs.get r = b) :
    rs.set r b = rs := by
  apply ext_get
  intro s
  rw [get_set]
  split
  · rename_i hs
    rw [hs, h]
  · rfl

@[simp] theorem length_toList (rs : Registers) : rs.toList.length = 8 := by
  simp [toList]

end Registers

/-! ## Interrupt lines as bits -/

/-- The byte with the bit of one line set. -/
def lineBit (line : Register) : UInt8 := 1 <<< UInt8.ofNat line

/-- Whether the bit of a line is set. -/
def hasLine (b : UInt8) (line : Register) : Bool := b.toBitVec.getLsbD line

/-- The lowest line whose bit is set. -/
def lowestLine? (b : UInt8) : Option Register := (List.finRange 8).find? (hasLine b)

theorem hasLine_lineBit (r s : Register) : hasLine (lineBit r) s = decide (s = r) := by
  revert r s
  decide

/-- Bits of a union. -/
@[simp] theorem hasLine_or (a b : UInt8) (r : Register) :
    hasLine (a ||| b) r = (hasLine a r || hasLine b r) := by
  simp [hasLine]

/-- Bits of an intersection. -/
@[simp] theorem hasLine_and (a b : UInt8) (r : Register) :
    hasLine (a &&& b) r = (hasLine a r && hasLine b r) := by
  simp [hasLine]

/-- Clearing the bit of one line leaves the other lines. -/
theorem hasLine_clear (b : UInt8) (r s : Register) :
    hasLine (b &&& ~~~ lineBit r) s = (hasLine b s && decide (s ≠ r)) := by
  have hnot : hasLine (~~~ lineBit r) s = decide (s ≠ r) := by
    revert r s
    decide
  rw [hasLine_and, hnot]

/-- A byte without lines is zero. -/
theorem eq_zero_iff_hasLine {b : UInt8} : b = 0 ↔ ∀ r, hasLine b r = false := by
  constructor
  · rintro rfl r
    simp [hasLine]
  · intro h
    rw [← UInt8.toBitVec_inj]
    apply BitVec.eq_of_getLsbD_eq
    intro i hi
    rw [show b.toBitVec.getLsbD i = false from h ⟨i, hi⟩]
    simp

/-- **The lowest line** is set, and no line below it is. -/
theorem lowestLine?_eq_some_iff {b : UInt8} {r : Register} :
    lowestLine? b = some r ↔ hasLine b r = true ∧ ∀ s < r, hasLine b s = false := by
  rw [lowestLine?, List.find?_eq_some_iff_getElem]
  refine and_congr_right fun _ => ⟨?_, fun h => ?_⟩
  · rintro ⟨i, hi, rfl, hbefore⟩ s hs
    have hsi : (s : Nat) < i := by
      rw [List.getElem_finRange, Fin.lt_def] at hs
      exact hs
    have := hbefore s hsi
    rw [List.getElem_finRange] at this
    simpa using this
  · refine ⟨r, by simp, by simp, fun j hj => ?_⟩
    rw [List.getElem_finRange]
    simpa using h ⟨j, by omega⟩ hj

/-- There is a lowest line unless no line is set. -/
theorem lowestLine?_eq_none_iff {b : UInt8} : lowestLine? b = none ↔ b = 0 := by
  rw [eq_zero_iff_hasLine, lowestLine?, List.find?_eq_none]
  simp

end Ls8
