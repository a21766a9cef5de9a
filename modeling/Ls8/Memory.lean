import Ls8.Byte
import Ls8.Text.Numeral

/-
  The memory block.

  A block covers `length` consecutive addresses from `start`, all of them below 256.  Addresses in
  requests are integers of any size, so every access checks its address, and a write checks its
  value first.

  The view of a block is the partial map `get?` from integers to bytes.  Main statements: `get?`
  is defined exactly on the covered addresses (`get?_isSome_iff`); reading is `get?` with an error
  for the gaps (`read_eq_ok_iff`); a store changes one address (`get?_store`) and fails exactly
  outside the block (`store_isOk_iff`); a fresh or cleared block is zero everywhere
  (`get?_create`, `get?_clear`).
-/

namespace Ls8

/-- Why a memory request was refused. -/
inductive MemoryError where
  /-- A block starts below zero or is empty. -/
  | illFormed
  /-- A block reaches past the last address. -/
  | tooLarge (start length : Nat)
  /-- An access to an address that the block does not cover. -/
  | outside (address : Int) (first last : Nat)
  /-- A write of something that is not a byte. -/
  | notByte (value address : Int)
  deriving DecidableEq, Repr

/-- The text of a memory error. -/
def MemoryError.message : MemoryError → String
  | .illFormed => "memory block must have a positive length and non-negative start"
  | .tooLarge start length =>
    "memory block " ++ Text.address start ++ "+" ++ Text.decimal length ++
      " exceeds the 8-bit address space"
  | .outside a first last =>
    "address " ++ Text.address a ++ " outside memory " ++ Text.address first ++ "-" ++
      Text.address last
  | .notByte value a =>
    "value " ++ Text.plainHex value ++ " at " ++ Text.address a ++ " does not fit a byte"

/-- A block of bytes at consecutive addresses. -/
structure Memory where
  start : Nat
  length : Nat
  length_pos : 0 < length
  fits : start + length ≤ 256
  cells : Vector UInt8 length

namespace Memory

/-- A zero-filled block, if the machine has such addresses. -/
def create (start length : Int) : Except MemoryError Memory :=
  if h : start < 0 ∨ length ≤ 0 then .error .illFormed
  else if hfit : start + length > 256 then .error (.tooLarge start.toNat length.toNat)
  else .ok {
    start := start.toNat
    length := length.toNat
    length_pos := by omega
    fits := by omega
    cells := Vector.replicate _ 0 }

/-- The full block of 256 zero bytes. -/
def full : Memory where
  start := 0
  length := 256
  length_pos := by decide
  fits := by decide
  cells := Vector.replicate _ 0

/-- The last address of a block. -/
def last (m : Memory) : Nat := m.start + m.length - 1

/-- Whether a block covers an address. -/
def Covers (m : Memory) (a : Int) : Prop := (m.start : Int) ≤ a ∧ a < m.start + m.length

instance (m : Memory) (a : Int) : Decidable (m.Covers a) := instDecidableAnd

/-- The position of a covered address in the block. -/
def offset (m : Memory) (a : Int) (h : m.Covers a) : Fin m.length :=
  ⟨(a - m.start).toNat, by have := h.1; have := h.2; omega⟩

/-- **The view of a block:** the byte at an address, if the block covers it. -/
def get? (m : Memory) (a : Int) : Option UInt8 :=
  if h : m.Covers a then some m.cells[m.offset a h] else none

/-- The error of an access that misses the block. -/
def missed (m : Memory) (a : Int) : MemoryError := .outside a m.start m.last

/-- Reading a byte. -/
def read (m : Memory) (a : Int) : Except MemoryError UInt8 :=
  match m.get? a with
  | some b => .ok b
  | none => .error (m.missed a)

/-- Storing a byte. -/
def store (m : Memory) (a : Int) (b : UInt8) : Except MemoryError Memory :=
  if h : m.Covers a then .ok { m with cells := m.cells.set (m.offset a h) b }
  else .error (m.missed a)

/-- Writing an integer, which has to be a byte; its value is checked before its address. -/
def write (m : Memory) (a value : Int) : Except MemoryError Memory :=
  match toByte? value with
  | some b => m.store a b
  | none => .error (.notByte value a)

/-- The block with every byte set to `b`. -/
def fill (m : Memory) (b : UInt8) : Memory := { m with cells := Vector.replicate _ b }

/-- The block with every byte zero. -/
def clear (m : Memory) : Memory := m.fill 0

/-- The bytes of a block in ascending order of address. -/
def bytes (m : Memory) : List UInt8 := m.cells.toList

/-! ## The view -/

/-- The view is defined exactly on the covered addresses. -/
theorem get?_isSome_iff {m : Memory} {a : Int} : (m.get? a).isSome ↔ m.Covers a := by
  unfold get?
  split <;> simp_all

theorem get?_eq_none_iff {m : Memory} {a : Int} : m.get? a = none ↔ ¬ m.Covers a := by
  rw [← get?_isSome_iff, Option.not_isSome_iff_eq_none]

/-- **Reading is the view,** with an error where the view is undefined. -/
theorem read_eq_ok_iff {m : Memory} {a : Int} {b : UInt8} :
    m.read a = .ok b ↔ m.get? a = some b := by
  unfold read
  split <;> simp_all

theorem read_eq_error_iff {m : Memory} {a : Int} {e : MemoryError} :
    m.read a = .error e ↔ ¬ m.Covers a ∧ e = m.missed a := by
  rw [← get?_eq_none_iff]
  unfold read
  cases m.get? a <;> simp [eq_comm]

/-- A store succeeds exactly inside the block. -/
theorem store_isOk_iff {m : Memory} {a : Int} {b : UInt8} :
    (∃ m', m.store a b = .ok m') ↔ m.Covers a := by
  unfold store
  split <;> simp_all

/-- A store moves no boundary of the block. -/
theorem store_bounds {m m' : Memory} {a : Int} {b : UInt8} (h : m.store a b = .ok m') :
    m'.start = m.start ∧ m'.length = m.length := by
  unfold store at h
  split at h
  · cases h; exact ⟨rfl, rfl⟩
  · cases h

theorem store_covers {m m' : Memory} {a x : Int} {b : UInt8} (h : m.store a b = .ok m') :
    m'.Covers x ↔ m.Covers x := by
  obtain ⟨hs, hl⟩ := store_bounds h
  unfold Covers
  rw [hs, hl]

/-- **A store changes the view at its address only.** -/
theorem get?_store {m m' : Memory} {a : Int} {b : UInt8} (h : m.store a b = .ok m') (x : Int) :
    m'.get? x = if x = a then some b else m.get? x := by
  have hcov : m.Covers a := store_isOk_iff.mp ⟨m', h⟩
  unfold store at h
  rw [dif_pos hcov] at h
  cases h
  by_cases hx : m.Covers x
  · have hx' : Covers { m with cells := m.cells.set (m.offset a hcov) b } x := hx
    simp only [get?, dif_pos hx', dif_pos hx, Fin.getElem_fin, Vector.getElem_set]
    have ha1 := hcov.1; have hx1 := hx.1
    -- two covered addresses have the same position exactly if they are equal
    have hpos : (m.offset a hcov : Nat) =
        (offset { m with cells := m.cells.set (m.offset a hcov) b } x hx' : Nat) ↔ x = a := by
      simp only [offset]
      omega
    by_cases hxa : x = a
    · rw [if_pos (hpos.mpr hxa), if_pos hxa]
    · rw [if_neg (fun he => hxa (hpos.mp he)), if_neg hxa]
      rfl
  · have hxa : x ≠ a := fun he => hx (he ▸ hcov)
    have hx' : ¬ Covers { m with cells := m.cells.set (m.offset a hcov) b } x := hx
    simp only [get?, dif_neg hx', dif_neg hx, if_neg hxa]

/-- A filled block holds the byte wherever it is defined. -/
theorem get?_fill (m : Memory) (b : UInt8) (a : Int) :
    (m.fill b).get? a = (m.get? a).map fun _ => b := by
  by_cases h : m.Covers a
  · have h' : (m.fill b).Covers a := h
    rw [get?, dif_pos h', get?, dif_pos h, Option.map_some]
    exact congrArg some (Vector.getElem_replicate _)
  · have h' : ¬ (m.fill b).Covers a := h
    rw [get?, dif_neg h', get?, dif_neg h]
    rfl

theorem get?_clear (m : Memory) (a : Int) : m.clear.get? a = (m.get? a).map fun _ => 0 :=
  get?_fill m 0 a

/-- **Exactly the blocks inside the address space can be created.** -/
theorem create_isOk_iff {start length : Int} :
    (∃ m, create start length = .ok m) ↔ 0 ≤ start ∧ 0 < length ∧ start + length ≤ 256 := by
  unfold create
  split
  · simp only [reduceCtorEq, exists_false, false_iff]; omega
  · split
    · simp only [reduceCtorEq, exists_false, false_iff]; omega
    · simp only [Except.ok.injEq, exists_eq', true_iff]; omega

theorem create_bounds {start length : Int} {m : Memory} (h : create start length = .ok m) :
    (m.start : Int) = start ∧ (m.length : Int) = length := by
  unfold create at h
  split at h
  · cases h
  · split at h
    · cases h
    · cases h
      simp only
      omega

/-- A fresh block is zero wherever it is defined. -/
theorem get?_create {start length : Int} {m : Memory} (h : create start length = .ok m) (a : Int) :
    m.get? a = if start ≤ a ∧ a < start + length then some 0 else none := by
  have hb := create_bounds h
  have hcov : m.Covers a ↔ start ≤ a ∧ a < start + length := by
    unfold Covers
    omega
  unfold create at h
  split at h
  · cases h
  · split at h
    · cases h
    · cases h
      by_cases hc : start ≤ a ∧ a < start + length
      · rw [if_pos hc, get?, dif_pos (hcov.mpr hc)]
        simp
      · rw [if_neg hc, get?, dif_neg fun hcon => hc (hcov.mp hcon)]

/-- The bytes of a block are as many as its addresses. -/
@[simp] theorem length_bytes (m : Memory) : m.bytes.length = m.length := by
  simp [bytes]

/-- The k-th byte of a block is the one at the k-th address. -/
theorem getElem?_bytes (m : Memory) (k : Nat) : m.bytes[k]? = m.get? (m.start + k) := by
  by_cases hk : k < m.length
  · have hcov : m.Covers (m.start + k) := by unfold Covers; omega
    have hoff : (m.offset (m.start + k) hcov : Nat) = k := by simp only [offset]; omega
    rw [get?, dif_pos hcov]
    simp only [bytes, Fin.getElem_fin, hoff]
    simp [hk]
  · have hcov : ¬ m.Covers (m.start + k) := by unfold Covers; omega
    rw [get?, dif_neg hcov]
    simp only [bytes]
    simp
    omega

end Memory

end Ls8
