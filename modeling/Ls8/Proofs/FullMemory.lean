import Ls8.Memory

/-
  The block of 256 bytes.

  A full block covers exactly the addresses that a byte can hold, so no access by a byte misses it.
-/

namespace Ls8.Memory

/-- A block that covers all 256 addresses. -/
def Full (m : Memory) : Prop := m.start = 0 ∧ m.length = 256

instance (m : Memory) : Decidable m.Full := instDecidableAnd

theorem Full.covers_iff {m : Memory} (h : m.Full) {a : Int} : m.Covers a ↔ 0 ≤ a ∧ a ≤ 255 := by
  obtain ⟨hs, hl⟩ := h
  unfold Covers
  omega

/-- Every byte is an address of a full block. -/
theorem Full.covers {m : Memory} (h : m.Full) (a : UInt8) : m.Covers a.toNat := by
  have := a.toNat_lt
  rw [h.covers_iff]
  omega

/-- A full block has a byte at every address from 0 to 255. -/
theorem Full.exists_get? {m : Memory} (h : m.Full) {a : Int} (ha : 0 ≤ a ∧ a ≤ 255) :
    ∃ b, m.get? a = some b :=
  Option.isSome_iff_exists.mp (get?_isSome_iff.mpr (h.covers_iff.mpr ha))

/-- A store keeps a block full. -/
theorem Full.store {m m' : Memory} {a : Int} {b : UInt8} (h : m.Full) (hm : m.store a b = .ok m') :
    m'.Full := by
  obtain ⟨hs, hl⟩ := store_bounds hm
  exact ⟨hs.trans h.1, hl.trans h.2⟩

/-- A full block that starts with the given bytes and is zero behind them. -/
def holding (bytes : List UInt8) : Memory :=
  { full with cells := Vector.ofFn fun k => bytes.getD k 0 }

theorem full_holding (bytes : List UInt8) : (holding bytes).Full := ⟨rfl, rfl⟩

end Ls8.Memory
