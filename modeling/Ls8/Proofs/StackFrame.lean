import Ls8.Proofs.FullMemory
import Ls8.Proofs.Step

/-
  Bytes saved on the stack, and registers restored from it.

  1. **Saving** — `Saved bytes p q`: from `p` to `q` the bytes were pushed, the first one at the
     highest address, and nothing else happened.  Pushes compose (`Saved.trans`), and saving
     registers one after the other is such a push of their values (`exists_forM_pushRegister`).

  2. **Restoring** — `Restored rs p q`: from `p` to `q` the registers `rs` were popped in this order
     and nothing else happened.  Popping registers other than the stack pointer succeeds exactly
     then (`forM_popInto_eq_ok_iff`).

  Both walk through the list of registers; the stack pointer is no member of it, since saving or
  restoring that one means something else.
-/

namespace Ls8.Processor

variable {p q r : Processor} {u : Unit}

/-- The indices of registers. -/
def indices (rs : List Register) : List Int := rs.map fun s : Register => ((s : Nat) : Int)

/-! ## Restoring -/

/-- **The registers `rs` were popped** in this order. -/
structure Restored (rs : List Register) (p q : Processor) : Prop where
  room : p.sp.toNat + rs.length ≤ 255
  value : ∀ k (h : k < rs.length), p.memory.get? (p.sp.toNat + k) = some (q.registers.get rs[k])
  pointer : q.sp.toNat = p.sp.toNat + rs.length
  kept : ∀ s, s ∉ rs → s ≠ .sp → q.registers.get s = p.registers.get s
  frame : q = { p with registers := q.registers }

theorem sp_withRegister_of_ne {s : Register} (hs : s ≠ .sp) (b : UInt8) :
    (p.withRegister s b).sp = p.sp :=
  Registers.get_set_ne _ hs.symm _

/-- Acknowledging a line leaves the pointer. -/
theorem sp_acknowledged (p : Processor) (line : Register) : (p.acknowledged line).sp = p.sp :=
  sp_withRegister_of_ne (by decide) _

/-- A pop into a register other than the stack pointer. -/
theorem popInto_eq_ok_iff_of_ne {s : Register} (hs : s ≠ .sp) :
    popInto ((s : Nat) : Int) p = .ok u q ↔ p.sp ≠ 0xff ∧ ∃ b, p.memory.get? p.sp.toNat = some b ∧
      q = (p.withRegister s b).withRegister .sp (p.sp + 1) := by
  rw [popInto_eq_ok_iff]
  constructor
  · rintro ⟨s', b, he, hb, hsp, rfl⟩
    obtain rfl : s' = s := Fin.ext (by omega)
    rw [sp_withRegister_of_ne hs] at hsp ⊢
    exact ⟨hsp, b, hb, rfl⟩
  · rintro ⟨hsp, b, hb, rfl⟩
    refine ⟨s, b, rfl, hb, ?_, ?_⟩ <;> rw [sp_withRegister_of_ne hs]
    exact hsp

/-- Restoring nothing. -/
theorem restored_nil_iff : Restored [] p q ↔ q = p := by
  constructor
  · rintro ⟨_, _, hsp, hkept, hframe⟩
    have hregs : q.registers = p.registers := by
      apply Registers.ext_get
      intro s
      by_cases hs : s = .sp
      · rw [hs]
        exact UInt8.toNat_inj.mp hsp
      · exact hkept s List.not_mem_nil hs
    rw [hframe, hregs]
  · rintro rfl
    have := q.sp.toNat_lt
    refine ⟨?_, fun k h => absurd h (Nat.not_lt_zero k), rfl, fun _ _ _ => rfl, rfl⟩
    simp only [List.length_nil]
    omega

/-- **Restoring one more register:** it takes the byte at the top, and the others follow from the
    next address on. -/
theorem restored_cons_iff {s : Register} {rs : List Register} (hs : s ≠ .sp) (hsr : s ∉ rs) :
    Restored (s :: rs) p q ↔ p.sp ≠ 0xff ∧ ∃ b, p.memory.get? p.sp.toNat = some b ∧
      Restored rs ((p.withRegister s b).withRegister .sp (p.sp + 1)) q := by
  constructor
  · -- the first register is at the top already, so what stands there is its final value
    rintro ⟨hroom, hvalue, hsp, hkept, hframe⟩
    simp only [List.length_cons] at hroom hsp hvalue
    have hne : p.sp ≠ 0xff := by
      intro he
      have hlast : p.sp.toNat = 255 := by rw [he]; rfl
      omega
    refine ⟨hne, q.registers.get s, by simpa using hvalue 0 (by omega), ?_⟩
    constructor
    · rw [sp_withRegister_sp, toNat_add_one hne]
      omega
    · intro k hk
      have hv := hvalue (k + 1) (by omega)
      rw [sp_withRegister_sp, toNat_add_one hne]
      simp only [memory_withRegister, List.getElem_cons_succ] at hv ⊢
      rw [← hv]
      congr 1
      omega
    · rw [sp_withRegister_sp, toNat_add_one hne]
      omega
    · intro s' hs' hsp'
      simp only [registers_withRegister, Registers.get_set, if_neg hsp']
      by_cases he : s' = s
      · rw [if_pos he, he]
      · rw [if_neg he]
        exact hkept s' (by simp [he, hs']) hsp'
    · exact hframe
  · rintro ⟨hne, b, hb, hroom, hvalue, hsp, hkept, hframe⟩
    simp only [sp_withRegister_sp, toNat_add_one hne, memory_withRegister] at hroom hvalue hsp
    constructor
    · simp only [List.length_cons]
      omega
    · rintro (_ | k) hk
      · -- later pops leave the first register alone, since it does not come again
        have := hkept s hsr hs
        simp only [registers_withRegister, Registers.get_set, if_neg hs] at this
        simpa [this] using hb
      · have hv := hvalue k (by simpa using hk)
        simp only [List.getElem_cons_succ]
        rw [← hv]
        congr 1
        omega
    · simp only [List.length_cons]
      omega
    · intro s' hs' hsp'
      simp only [List.mem_cons, not_or] at hs'
      have := hkept s' hs'.2 hsp'
      simpa only [registers_withRegister, Registers.get_set, if_neg hsp', if_neg hs'.1] using this
    · exact hframe

/-- **Popping registers restores them,** and succeeds only if they can be restored. -/
theorem forM_popInto_eq_ok_iff {rs : List Register} (hsp : .sp ∉ rs) (hnodup : rs.Nodup) :
    (indices rs).forM popInto p = .ok u q ↔ Restored rs p q := by
  induction rs generalizing p with
  | nil =>
    rw [restored_nil_iff]
    exact pure_eq_ok_iff.trans (by simp)
  | cons s rs ih =>
    simp only [List.mem_cons, not_or, List.nodup_cons] at hsp hnodup
    rw [restored_cons_iff (Ne.symm hsp.1) hnodup.1]
    show (popInto ((s : Nat) : Int) >>= fun _ => (indices rs).forM popInto) p = .ok u q ↔ _
    simp only [bind_eq_ok_iff, popInto_eq_ok_iff_of_ne (Ne.symm hsp.1)]
    constructor
    · rintro ⟨_, _, ⟨hne, b, hb, rfl⟩, hrest⟩
      exact ⟨hne, b, hb, (ih hsp.2 hnodup.2).mp hrest⟩
    · rintro ⟨hne, b, hb, hrest⟩
      exact ⟨(), _, ⟨hne, b, hb, rfl⟩, (ih hsp.2 hnodup.2).mpr hrest⟩

/-! ## Saving -/

/-- **The bytes were pushed,** the first one at the highest address. -/
structure Saved (bytes : List UInt8) (p q : Processor) : Prop where
  room : bytes.length ≤ p.sp.toNat
  pointer : q.sp.toNat = p.sp.toNat - bytes.length
  stored : ∀ k (h : k < bytes.length), q.memory.get? (p.sp.toNat - 1 - k) = some bytes[k]
  kept : ∀ a : Int, a < q.sp.toNat ∨ p.sp.toNat ≤ a → q.memory.get? a = p.memory.get? a
  bounds : q.memory.start = p.memory.start ∧ q.memory.length = p.memory.length
  frame : q = { p with registers := p.registers.set .sp q.sp, memory := q.memory }

theorem Saved.full {bytes : List UInt8} (h : Saved bytes p q) (hp : p.memory.Full) :
    q.memory.Full :=
  ⟨h.bounds.1.trans hp.1, h.bounds.2.trans hp.2⟩

theorem Saved.registers_of_ne {bytes : List UInt8} (h : Saved bytes p q) {s : Register}
    (hs : s ≠ .sp) : q.registers.get s = p.registers.get s := by
  rw [h.frame]
  exact Registers.get_set_ne _ hs _

theorem saved_nil : Saved [] p p where
  room := Nat.zero_le _
  pointer := rfl
  stored := fun k h => absurd h (Nat.not_lt_zero k)
  kept := fun _ _ => rfl
  bounds := ⟨rfl, rfl⟩
  frame := by rw [Registers.set_eq_self (show p.registers.get .sp = p.sp from rfl)]

/-- **Pushes compose.** -/
theorem Saved.trans {bytes more : List UInt8} (h : Saved bytes p q) (h' : Saved more q r) :
    Saved (bytes ++ more) p r := by
  have hsp := h.pointer
  have hsp' := h'.pointer
  have hroom := h.room
  have hroom' := h'.room
  constructor
  · rw [List.length_append]
    omega
  · rw [List.length_append]
    omega
  · intro k hk
    rw [List.length_append] at hk
    by_cases hlt : k < bytes.length
    · -- the bytes of the first push lie above the second one
      rw [h'.kept _ (by omega), h.stored k hlt, List.getElem_append_left hlt]
    · rw [List.getElem_append_right (by omega), ← h'.stored _ (by omega)]
      congr 1
      omega
  · intro a ha
    rw [h'.kept a (by omega), h.kept a (by omega)]
  · exact ⟨h'.bounds.1.trans h.bounds.1, h'.bounds.2.trans h.bounds.2⟩
  · have hframe := h'.frame
    rw [h.frame] at hframe
    simpa only [Registers.set_set] using hframe

/-- A push saves its byte. -/
theorem saved_of_pushByte {b : UInt8} (h : pushByte b p = .ok u q) : Saved [b] p q := by
  obtain ⟨h0, m, hm, rfl⟩ := pushByte_eq_ok_iff.mp h
  have hsub := toNat_sub_one h0
  have hpos : p.sp.toNat ≠ 0 := fun h => h0 (UInt8.toNat_inj.mp h)
  have hget := Memory.get?_store hm
  have hsp : Processor.sp { p.withRegister .sp (p.sp - 1) with memory := m } = p.sp - 1 :=
    sp_withRegister_sp _ _
  constructor
  · simp only [List.length_singleton]
    omega
  · rw [hsp, hsub, List.length_singleton]
  · intro k hk
    obtain rfl : k = 0 := by simpa using hk
    rw [hget, if_pos (by omega)]
    rfl
  · intro a ha
    rw [hsp] at ha
    rw [hget, if_neg (by omega)]
  · exact Memory.store_bounds hm
  · rw [hsp]
    rfl

/-- In a full block there is room for a byte unless the pointer is zero. -/
theorem exists_pushByte (hfull : p.memory.Full) (h0 : p.sp ≠ 0) (b : UInt8) :
    ∃ q, pushByte b p = .ok () q ∧ Saved [b] p q := by
  obtain ⟨m, hm⟩ := Memory.store_isOk_iff (b := b) |>.mpr (hfull.covers (p.sp - 1))
  have hpush : pushByte b p = .ok () { p.withRegister .sp (p.sp - 1) with memory := m } :=
    pushByte_eq_ok_iff.mpr ⟨h0, m, hm, rfl⟩
  exact ⟨_, hpush, saved_of_pushByte hpush⟩

/-- Saving a register pushes the value it has once the pointer is lowered. -/
theorem pushRegister_eq (s : Register) :
    pushRegister ((s : Nat) : Int) p =
      pushByte ((p.withRegister .sp (p.sp - 1)).registers.get s) p := by
  by_cases h0 : p.sp = 0
  · have hlower : lowerSp p = .error (.stack .overflow) p := by rw [lowerSp, if_pos h0]
    rw [pushRegister, bind_of_error hlower, pushByte, bind_of_error hlower]
  · have hlower : lowerSp p = .ok () (p.withRegister .sp (p.sp - 1)) := by rw [lowerSp, if_neg h0]
    rw [pushRegister, bind_of_ok hlower, bind_of_ok (readRegister_of_register s _), pushByte,
      bind_of_ok hlower]

/-- **Saving registers one after the other** pushes their values. -/
theorem exists_forM_pushRegister {rs : List Register} (hsp : .sp ∉ rs) (hfull : p.memory.Full)
    (hroom : rs.length ≤ p.sp.toNat) :
    ∃ q, (indices rs).forM pushRegister p = .ok () q ∧ Saved (rs.map p.registers.get) p q := by
  induction rs generalizing p with
  | nil => exact ⟨p, rfl, saved_nil⟩
  | cons s rs ih =>
    simp only [List.mem_cons, not_or] at hsp
    simp only [List.length_cons] at hroom
    have h0 : p.sp ≠ 0 := by
      intro h0
      rw [h0] at hroom
      simp at hroom
    obtain ⟨q, hpush, hq⟩ := exists_pushByte hfull h0 (p.registers.get s)
    have hlen := hq.pointer
    rw [List.length_singleton] at hlen
    obtain ⟨r, hrest, hr⟩ := ih hsp.2 (hq.full hfull) (by omega)
    have hvalues : rs.map q.registers.get = rs.map p.registers.get := by
      apply List.map_congr_left
      intro s' hs'
      exact hq.registers_of_ne fun he => hsp.2 (he ▸ hs')
    refine ⟨r, ?_, by simpa [hvalues] using hq.trans hr⟩
    show (pushRegister ((s : Nat) : Int) >>= fun _ => (indices rs).forM pushRegister) p = _
    have hvalue : (p.withRegister .sp (p.sp - 1)).registers.get s = p.registers.get s :=
      Registers.get_set_ne _ (Ne.symm hsp.1) _
    rw [bind_of_ok (by rw [pushRegister_eq, hvalue]; exact hpush), hrest]

end Ls8.Processor
