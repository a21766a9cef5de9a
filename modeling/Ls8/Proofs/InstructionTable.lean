import Ls8.Proofs.StackFrame

/-
  The instruction table: what each operation does, row by row.

  `Row p op q text` says that the row of `op` leads from `p` to `q` and puts out `text`, if anything.
  A row is put in terms of the processor before the operation alone, with no order among its parts:
  every register on its right-hand side has the value it had before.  So a push of the stack pointer
  stores the pointer as it was, and a call through it goes there; only a pop into it, which has a row
  of its own, ends one above the popped byte.

  Main statements: an operation that succeeds follows its row (`row_of_execute`), it succeeds
  whenever the conditions of its row hold (`execute_of_row`), and so a row leads to one processor
  only (`Row.unique`).
-/

namespace Ls8

/-- Whether every bit of one byte is set in another. -/
def BitsWithin (a b : UInt8) : Prop := ∀ k, hasLine a k = true → hasLine b k = true

instance (a b : UInt8) : Decidable (BitsWithin a b) :=
  inferInstanceAs (Decidable (∀ k, hasLine a k = true → hasLine b k = true))

theorem bitsWithin_iff {a b : UInt8} : BitsWithin a b ↔ a &&& ~~~b = 0 := by
  rw [eq_zero_iff_hasLine]
  refine forall_congr' fun k => ?_
  have hnot : hasLine (~~~b) k = !hasLine b k := by simp [hasLine]
  rw [hasLine_and, hnot]
  cases hasLine a k <;> cases hasLine b k <;> simp

namespace Processor

/-- **The rows of the instruction table.** -/
inductive Row (p : Processor) : Operation → Processor → Option String → Prop where
  | nop : Row p .nop { p with pc := p.pc + 1 } none
  | ldi {r : Register} {b : UInt8} (h1 : p.Names 1 r) (h2 : p.Operand 2 b) :
    Row p .ldi { p with registers := p.registers.set r b, pc := p.pc + 3 } none
  | add {r s : Register} (h1 : p.Names 1 r) (h2 : p.Names 2 s) :
    Row p .add { p with
      registers := p.registers.set r (p.registers.get r + p.registers.get s), pc := p.pc + 3 } none
  | mul {r s : Register} (h1 : p.Names 1 r) (h2 : p.Names 2 s) :
    Row p .mul { p with
      registers := p.registers.set r (p.registers.get r * p.registers.get s), pc := p.pc + 3 } none
  | cmp {r s : Register} (h1 : p.Names 1 r) (h2 : p.Names 2 s) :
    Row p .cmp { p with
      equal := some (decide (BitsWithin (p.registers.get r) (p.registers.get s))),
      pc := p.pc + 3 } none
  | prn {r : Register} (h1 : p.Names 1 r) :
    Row p .prn { p with pc := p.pc + 2 } (some (Text.decimal (p.registers.get r).toNat))
  | pra {r : Register} (h1 : p.Names 1 r) :
    Row p .pra { p with pc := p.pc + 2 }
      (some (String.singleton (Char.ofNat (p.registers.get r).toNat)))
  | push {r : Register} {m : Memory} (h1 : p.Names 1 r) (hsp : p.sp ≠ 0)
      (hm : p.memory.store (p.sp - 1).toNat (p.registers.get r) = .ok m) :
    Row p .push { p with
      registers := p.registers.set .sp (p.sp - 1), memory := m, pc := p.pc + 2 } none
  /-- A pop into a register other than the stack pointer. -/
  | pop {r : Register} {b : UInt8} (h1 : p.Names 1 r) (hr : r ≠ .sp)
      (hb : p.memory.get? p.sp.toNat = some b) (hsp : p.sp ≠ 0xff) :
    Row p .pop { p with
      registers := (p.registers.set r b).set .sp (p.sp + 1), pc := p.pc + 2 } none
  /-- A pop into the stack pointer. -/
  | popSp {b : UInt8} (h1 : p.Names 1 .sp) (hb : p.memory.get? p.sp.toNat = some b)
      (hsp : b ≠ 0xff) :
    Row p .pop { p with registers := p.registers.set .sp (b + 1), pc := p.pc + 2 } none
  | call {r : Register} {b : UInt8} {m : Memory} (h1 : p.Names 1 r) (hsp : p.sp ≠ 0)
      (hb : (b.toNat : Int) = p.pc + 2) (hm : p.memory.store (p.sp - 1).toNat b = .ok m) :
    Row p .call { p with
      registers := p.registers.set .sp (p.sp - 1), memory := m,
      pc := (p.registers.get r).toNat } none
  | ret {b : UInt8} (hb : p.memory.get? p.sp.toNat = some b) (hsp : p.sp ≠ 0xff) :
    Row p .ret { p with registers := p.registers.set .sp (p.sp + 1), pc := b.toNat } none
  | jmp {r : Register} (h1 : p.Names 1 r) :
    Row p .jmp { p with pc := (p.registers.get r).toNat } none
  | jeqTaken {r : Register} (heq : p.equal = some true) (h1 : p.Names 1 r) :
    Row p .jeq { p with pc := (p.registers.get r).toNat } none
  | jeqPassed (heq : p.equal ≠ some true) : Row p .jeq { p with pc := p.pc + 2 } none
  | jneTaken {r : Register} (heq : p.equal = some false) (h1 : p.Names 1 r) :
    Row p .jne { p with pc := (p.registers.get r).toNat } none
  | jnePassed (heq : p.equal ≠ some false) : Row p .jne { p with pc := p.pc + 2 } none
  | st {r s : Register} {m : Memory} (h1 : p.Names 1 r) (h2 : p.Names 2 s)
      (hm : p.memory.store (p.registers.get r).toNat (p.registers.get s) = .ok m) :
    Row p .st { p with memory := m, pc := p.pc + 3 } none
  /-- The byte `m` at the top is where the stack pointer goes first; the registers from 6 down to 0
      follow it, then the program counter. -/
  | iret {m back : UInt8} {rs : Registers} (hm : p.memory.get? p.sp.toNat = some m)
      (hroom : m.toNat + 9 ≤ 255)
      (hrs : ∀ s : Register, s ≠ .sp → p.memory.get? (m.toNat + 7 - (s : Nat)) = some (rs.get s))
      (hsp : rs.get .sp = m + 9) (hback : p.memory.get? (m.toNat + 8) = some back) :
    Row p .iret { p with registers := rs, pc := back.toNat, interruptsEnabled := true } none
  | hlt : Row p .hlt { p with halted := true } none

end Processor

/-- Where a processor is once its output has been taken. -/
def Output.land (p : Processor) : Output → Processor
  | .silent => p
  | .text _ width => { p with pc := p.pc + width }

/-- The text that is put out. -/
def Output.text? : Output → Option String
  | .silent => none
  | .text s _ => some s

namespace Processor

variable {p q : Processor} {out : Output}

/-- The registers below the stack pointer, from the last to the first. -/
def restorable : List Register := (List.finRange 7).reverse.map Fin.castSucc

theorem getElem_restorable (k : Nat) (h : k < restorable.length) :
    ((restorable[k] : Register) : Nat) = 6 - k := by
  revert k
  decide

theorem sp_notMem_restorable : Register.sp ∉ restorable := by decide

theorem nodup_restorable : restorable.Nodup := by decide

theorem mem_restorable {s : Register} (hs : s ≠ .sp) : s ∈ restorable := by
  revert s
  decide

/-- **The rest of a frame,** once the pointer has been restored: each register stands so many places
    above the pointer as it comes before the last. -/
theorem restored_restorable_iff {m : UInt8} (hne : m ≠ 0xff) :
    Restored restorable ((p.withRegister .sp m).withRegister .sp (m + 1)) q ↔
      m.toNat + 8 ≤ 255 ∧ q.sp.toNat = m.toNat + 8 ∧
      (∀ s : Register, s ≠ .sp →
        p.memory.get? (m.toNat + 7 - (s : Nat)) = some (q.registers.get s)) ∧
      q = { p with registers := q.registers } := by
  have hlen : restorable.length = 7 := rfl
  constructor
  · rintro ⟨hroom, hvalue, hpointer, _, hframe⟩
    rw [sp_withRegister_sp, toNat_add_one hne, hlen] at hroom hpointer
    refine ⟨by omega, by omega, fun s hs => ?_, hframe⟩
    obtain ⟨k, hk, rfl⟩ := List.getElem_of_mem (mem_restorable hs)
    have hv := hvalue k hk
    rw [sp_withRegister_sp, toNat_add_one hne] at hv
    rw [getElem_restorable, ← hv]
    simp only [memory_withRegister]
    congr 1
    omega
  · rintro ⟨hroom, hpointer, hvalue, hframe⟩
    constructor
    · rw [sp_withRegister_sp, toNat_add_one hne, hlen]
      omega
    · intro k hk
      have hs : restorable[k] ≠ .sp := fun he => sp_notMem_restorable (he ▸ List.getElem_mem hk)
      have hv := hvalue _ hs
      rw [getElem_restorable] at hv
      rw [sp_withRegister_sp, toNat_add_one hne, ← hv]
      simp only [memory_withRegister]
      congr 1
      omega
    · rw [sp_withRegister_sp, toNat_add_one hne, hpointer, hlen]
    · exact fun s hs hsp => absurd (mem_restorable hsp) hs
    · exact hframe

/-- **The interrupt return** takes the stack pointer from the top, and the rest from there. -/
theorem returnFromInterrupt_eq_ok_iff {u : Unit} :
    returnFromInterrupt p = .ok u q ↔ ∃ (m back : UInt8) (rs : Registers),
      p.memory.get? p.sp.toNat = some m ∧ m.toNat + 9 ≤ 255 ∧
      (∀ s : Register, s ≠ .sp → p.memory.get? (m.toNat + 7 - (s : Nat)) = some (rs.get s)) ∧
      rs.get .sp = m + 9 ∧ p.memory.get? (m.toNat + 8) = some back ∧
      q = { p with registers := rs, pc := back.toNat, interruptsEnabled := true } := by
  have hpops : returnFromInterrupt = (popInto (((Register.sp : Register) : Nat) : Int) >>= fun _ =>
      (indices restorable).forM popInto) >>= fun _ => popPc >>= fun _ =>
        modify fun p => { p with interruptsEnabled := true } := rfl
  rw [hpops]
  simp only [bind_eq_ok_iff, popInto_eq_ok_iff, modify_eq_ok_iff, popPc_eq_ok_iff,
    forM_popInto_eq_ok_iff sp_notMem_restorable nodup_restorable]
  constructor
  · rintro ⟨_, q₂, ⟨_, _, ⟨s, m, hs, hm, hne, rfl⟩, hrest⟩, _, _, ⟨hne', back, hback, rfl⟩, rfl⟩
    obtain rfl : s = .sp := Fin.ext (by omega)
    rw [sp_withRegister_sp] at hne hrest
    obtain ⟨hroom, hpointer, hvalue, hframe⟩ := (restored_restorable_iff hne).mp hrest
    have hlast : q₂.sp.toNat ≠ 255 := fun h => hne' (UInt8.toNat_inj.mp h)
    have hmemory : q₂.memory = p.memory := by rw [hframe]
    refine ⟨m, back, q₂.registers.set .sp (q₂.sp + 1), hm, by omega, fun s hs => ?_, ?_, ?_, ?_⟩
    · rw [Registers.get_set_ne _ hs]
      exact hvalue s hs
    · have := m.toNat_lt
      rw [Registers.get_set_self, ← UInt8.toNat_inj, toNat_add_one hne', UInt8.toNat_add]
      simp
      omega
    · rw [← hback, hmemory, hpointer]
      rfl
    · rw [hframe]
      rfl
  · rintro ⟨m, back, rs, hm, hroom, hrs, hsp, hback, rfl⟩
    have hm8 : (m + 8).toNat = m.toNat + 8 := by
      rw [UInt8.toNat_add]
      simp
      omega
    have hne : m ≠ 0xff := by
      rintro rfl
      simp at hroom
    have hne' : m + 8 ≠ 0xff := by
      intro he
      rw [he] at hm8
      simp at hm8
      omega
    -- where the processor stands when only the program counter is left
    let q : Processor := { p with registers := rs.set .sp (m + 8) }
    have hqsp : q.sp = m + 8 := Registers.get_set_self _ _ _
    have hrest : Restored restorable ((p.withRegister .sp m).withRegister .sp (m + 1)) q := by
      refine (restored_restorable_iff hne).mpr ⟨by omega, by rw [hqsp, hm8], fun s hs => ?_, rfl⟩
      rw [Registers.get_set_ne _ hs]
      exact hrs s hs
    refine ⟨(), q, ⟨(), _, ⟨.sp, m, rfl, hm, ?_, rfl⟩, ?_⟩, (), _, ⟨?_, back, ?_, rfl⟩, ?_⟩
    · rwa [sp_withRegister_sp]
    · rwa [sp_withRegister_sp]
    · rwa [hqsp]
    · rw [hqsp, hm8]
      exact hback
    · have hnine : m + 8 + 1 = m + 9 := by rw [UInt8.add_assoc]; rfl
      show _ = { p with registers := q.registers.set .sp (q.sp + 1), pc := _, interruptsEnabled := _ }
      rw [hqsp, hnine]
      simp only [q, Registers.set_set, Registers.set_eq_self hsp]

theorem arithmetic_eq_ok_iff {op : AluOperation} {u : Unit} :
    arithmetic op p = .ok u q ↔ ∃ r s, p.Names 1 r ∧ p.Names 2 s ∧ q = { p with
      registers := p.registers.set r (op.apply (p.registers.get r) (p.registers.get s)),
      pc := p.pc + 3 } := by
  simp only [arithmetic, bind_eq_ok_iff, operand_eq_ok_iff, registerOperand_eq_ok_iff,
    readRegister_eq_ok_iff, setRegister_eq_ok_iff, advance_eq_ok_iff]
  constructor
  · rintro ⟨_, _, ⟨h1, rfl⟩, _, _, ⟨s, h2, rfl, rfl⟩, _, _, ⟨r, hr, rfl, rfl⟩, _, _,
      ⟨r', hr', rfl⟩, rfl⟩
    obtain rfl : r' = r := Fin.ext (by omega)
    rw [natCast_register_eq_iff] at hr
    subst hr
    exact ⟨r', s, h1, h2, rfl⟩
  · rintro ⟨r, s, h1, h2, rfl⟩
    exact ⟨_, _, ⟨h1, rfl⟩, _, _, ⟨s, h2, rfl, rfl⟩, _, _,
      ⟨r, natCast_register_eq_iff.mpr rfl, rfl, rfl⟩, (), _,
      ⟨r, natCast_register_eq_iff.mpr rfl, rfl⟩, rfl⟩

theorem compare_eq_ok_iff {u : Unit} :
    compare p = .ok u q ↔ ∃ r s, p.Names 1 r ∧ p.Names 2 s ∧ q = { p with
      equal := some (decide (BitsWithin (p.registers.get r) (p.registers.get s))),
      pc := p.pc + 3 } := by
  have hbits (a b : UInt8) : (a &&& ~~~b == 0) = decide (BitsWithin a b) := by
    rw [Bool.eq_iff_iff, beq_iff_eq, decide_eq_true_iff, bitsWithin_iff]
  simp only [compare, bind_eq_ok_iff, registerOperand_eq_ok_iff, modify_eq_ok_iff,
    advance_eq_ok_iff, hbits]
  constructor
  · rintro ⟨_, _, ⟨r, h1, rfl, rfl⟩, _, _, ⟨s, h2, rfl, rfl⟩, _, _, rfl, rfl⟩
    exact ⟨r, s, h1, h2, rfl⟩
  · rintro ⟨r, s, h1, h2, rfl⟩
    exact ⟨_, _, ⟨r, h1, rfl, rfl⟩, _, _, ⟨s, h2, rfl, rfl⟩, (), _, rfl, rfl⟩

theorem jumpIf_of_eq {wanted : Bool} (h : p.equal = some wanted) :
    jumpIf wanted p = (do jump (← registerOperand 1).toNat : Step Unit) p := by
  show (if p.equal = some wanted then _ else _ : Step Unit) p = _
  rw [if_pos h]

theorem jumpIf_of_ne {wanted : Bool} (h : p.equal ≠ some wanted) :
    jumpIf wanted p = advance 2 p := by
  show (if p.equal = some wanted then _ else _ : Step Unit) p = _
  rw [if_neg h]

/-- A conditional jump is taken exactly on the wanted outcome; no outcome is none of the two. -/
theorem jumpIf_eq_ok_iff {wanted : Bool} {u : Unit} :
    jumpIf wanted p = .ok u q ↔
      (p.equal = some wanted ∧ ∃ r, p.Names 1 r ∧ q = { p with pc := (p.registers.get r).toNat }) ∨
      (p.equal ≠ some wanted ∧ q = { p with pc := p.pc + 2 }) := by
  constructor
  · intro hok
    by_cases h : p.equal = some wanted
    · simp only [jumpIf_of_eq h, bind_eq_ok_iff, registerOperand_eq_ok_iff, jump_eq_ok_iff] at hok
      obtain ⟨_, _, ⟨r, h1, rfl, rfl⟩, rfl⟩ := hok
      exact .inl ⟨h, r, h1, rfl⟩
    · simp only [jumpIf_of_ne h, advance_eq_ok_iff] at hok
      exact .inr ⟨h, hok⟩
  · rintro (⟨h, r, h1, rfl⟩ | ⟨h, rfl⟩)
    · simp only [jumpIf_of_eq h, bind_eq_ok_iff, registerOperand_eq_ok_iff, jump_eq_ok_iff]
      exact ⟨_, _, ⟨r, h1, rfl, rfl⟩, rfl⟩
    · rw [jumpIf_of_ne h]
      rfl

/-! ## The rows -/

/-- **An operation that succeeds follows its row.** -/
theorem row_of_execute {op : Operation} (h : execute op p = .ok out q) :
    Row p op (out.land q) out.text? := by
  cases op with
  | nop =>
    simp only [execute, bind_eq_ok_iff, advance_eq_ok_iff, pure_eq_ok_iff] at h
    obtain ⟨_, _, rfl, rfl, rfl⟩ := h
    exact .nop
  | ldi =>
    simp only [execute, bind_eq_ok_iff, operand_eq_ok_iff, setRegister_eq_ok_iff,
      natCast_register_eq_iff, advance_eq_ok_iff, pure_eq_ok_iff] at h
    obtain ⟨_, _, ⟨h1, rfl⟩, _, _, ⟨h2, rfl⟩, _, _, ⟨r, rfl, rfl⟩, _, _, rfl, rfl, rfl⟩ := h
    exact .ldi h1 h2
  | add =>
    simp only [execute, bind_eq_ok_iff, arithmetic_eq_ok_iff, pure_eq_ok_iff] at h
    obtain ⟨_, _, ⟨r, s, h1, h2, rfl⟩, rfl, rfl⟩ := h
    exact .add h1 h2
  | mul =>
    simp only [execute, bind_eq_ok_iff, arithmetic_eq_ok_iff, pure_eq_ok_iff] at h
    obtain ⟨_, _, ⟨r, s, h1, h2, rfl⟩, rfl, rfl⟩ := h
    exact .mul h1 h2
  | cmp =>
    simp only [execute, bind_eq_ok_iff, compare_eq_ok_iff, pure_eq_ok_iff] at h
    obtain ⟨_, _, ⟨r, s, h1, h2, rfl⟩, rfl, rfl⟩ := h
    exact .cmp h1 h2
  | prn =>
    simp only [execute, bind_eq_ok_iff, registerOperand_eq_ok_iff, pure_eq_ok_iff] at h
    obtain ⟨_, _, ⟨r, h1, rfl, rfl⟩, rfl, rfl⟩ := h
    exact .prn h1
  | pra =>
    simp only [execute, bind_eq_ok_iff, registerOperand_eq_ok_iff, pure_eq_ok_iff] at h
    obtain ⟨_, _, ⟨r, h1, rfl, rfl⟩, rfl, rfl⟩ := h
    exact .pra h1
  | push =>
    simp only [execute, bind_eq_ok_iff, registerOperand_eq_ok_iff, push_eq_ok_iff,
      pushByte_eq_ok_iff, advance_eq_ok_iff, pure_eq_ok_iff] at h
    obtain ⟨_, _, ⟨r, h1, rfl, rfl⟩, _, _, ⟨b, hb, hsp, m, hm, rfl⟩, _, _, rfl, rfl, rfl⟩ := h
    obtain rfl : b = _ := UInt8.toNat_inj.mp (Int.ofNat_inj.mp hb)
    exact .push h1 hsp hm
  | pop =>
    simp only [execute, bind_eq_ok_iff, operand_eq_ok_iff, popInto_eq_ok_iff,
      natCast_register_eq_iff, advance_eq_ok_iff, pure_eq_ok_iff] at h
    obtain ⟨_, p, ⟨h1, rfl⟩, _, _, ⟨r, b, rfl, hb, hsp, rfl⟩, _, _, rfl, rfl, rfl⟩ := h
    by_cases hr : r = .sp
    · subst hr
      rw [sp_withRegister_sp] at hsp ⊢
      have hset : ((p.withRegister .sp b).withRegister .sp (b + 1)) =
          p.withRegister .sp (b + 1) := by
        simp only [withRegister, Registers.set_set]
      rw [hset]
      exact .popSp h1 hb hsp
    · rw [sp_withRegister_of_ne hr] at hsp ⊢
      exact .pop h1 hr hb hsp
  | call =>
    simp only [execute, bind_eq_ok_iff, registerOperand_eq_ok_iff, get_eq_ok_iff, push_eq_ok_iff,
      pushByte_eq_ok_iff, jump_eq_ok_iff, pure_eq_ok_iff] at h
    obtain ⟨_, _, ⟨r, h1, rfl, rfl⟩, _, _, ⟨rfl, rfl⟩, _, _, ⟨b, hb, hsp, m, hm, rfl⟩, _, _, rfl,
      rfl, rfl⟩ := h
    exact .call h1 hsp hb hm
  | ret =>
    simp only [execute, bind_eq_ok_iff, popPc_eq_ok_iff, pure_eq_ok_iff] at h
    obtain ⟨_, _, ⟨hsp, b, hb, rfl⟩, rfl, rfl⟩ := h
    exact .ret hb hsp
  | jmp =>
    simp only [execute, bind_eq_ok_iff, registerOperand_eq_ok_iff, jump_eq_ok_iff,
      pure_eq_ok_iff] at h
    obtain ⟨_, _, ⟨r, h1, rfl, rfl⟩, _, _, rfl, rfl, rfl⟩ := h
    exact .jmp h1
  | jeq =>
    simp only [execute, bind_eq_ok_iff, jumpIf_eq_ok_iff, pure_eq_ok_iff] at h
    obtain ⟨_, _, ⟨heq, r, h1, rfl⟩ | ⟨heq, rfl⟩, rfl, rfl⟩ := h
    · exact .jeqTaken heq h1
    · exact .jeqPassed heq
  | jne =>
    simp only [execute, bind_eq_ok_iff, jumpIf_eq_ok_iff, pure_eq_ok_iff] at h
    obtain ⟨_, _, ⟨heq, r, h1, rfl⟩ | ⟨heq, rfl⟩, rfl, rfl⟩ := h
    · exact .jneTaken heq h1
    · exact .jnePassed heq
  | st =>
    simp only [execute, bind_eq_ok_iff, registerOperand_eq_ok_iff, storeByte_eq_ok_iff,
      advance_eq_ok_iff, pure_eq_ok_iff] at h
    obtain ⟨_, _, ⟨r, h1, rfl, rfl⟩, _, _, ⟨s, h2, rfl, rfl⟩, _, _, ⟨m, hm, rfl⟩, _, _, rfl, rfl,
      rfl⟩ := h
    exact .st h1 h2 hm
  | iret =>
    simp only [execute, bind_eq_ok_iff, returnFromInterrupt_eq_ok_iff, pure_eq_ok_iff] at h
    obtain ⟨_, _, ⟨m, back, rs, hm, hroom, hrs, hsp, hback, rfl⟩, rfl, rfl⟩ := h
    exact .iret hm hroom hrs hsp hback
  | hlt =>
    simp only [execute, bind_eq_ok_iff, modify_eq_ok_iff, pure_eq_ok_iff] at h
    obtain ⟨_, _, rfl, rfl, rfl⟩ := h
    exact .hlt

/-- An operation that puts out a text hands the processor to its caller as it was. -/
theorem eq_of_execute_text {op : Operation} {s : String} {width : Nat}
    (h : execute op p = .ok (.text s width) q) : q = p := by
  cases op with
  | prn | pra =>
    simp only [execute, bind_eq_ok_iff, registerOperand_eq_ok_iff, pure_eq_ok_iff] at h
    obtain ⟨_, _, ⟨_, _, _, rfl⟩, _, rfl⟩ := h
    rfl
  | _ =>
    simp only [execute, bind_eq_ok_iff, pure_eq_ok_iff, reduceCtorEq, false_and, and_false,
      exists_false] at h

/-- **An operation succeeds whenever the conditions of its row hold.** -/
theorem execute_of_row {op : Operation} {text : Option String} (h : Row p op q text) :
    ∃ out r, execute op p = .ok out r ∧ q = out.land r ∧ text = out.text? := by
  cases h with
  | nop => exact ⟨.silent, _, rfl, rfl, rfl⟩
  | ldi h1 h2 =>
    refine ⟨.silent, _, ?_, rfl, rfl⟩
    simp only [execute, bind_eq_ok_iff, operand_eq_ok_iff, setRegister_eq_ok_iff,
      natCast_register_eq_iff, advance_eq_ok_iff, pure_eq_ok_iff, true_and]
    exact ⟨_, _, ⟨h1, rfl⟩, _, _, ⟨h2, rfl⟩, (), _, ⟨_, rfl, rfl⟩, (), _, rfl, rfl⟩
  | add h1 h2 =>
    refine ⟨.silent, _, ?_, rfl, rfl⟩
    simp only [execute, bind_eq_ok_iff, arithmetic_eq_ok_iff, pure_eq_ok_iff, true_and]
    exact ⟨(), _, ⟨_, _, h1, h2, rfl⟩, rfl⟩
  | mul h1 h2 =>
    refine ⟨.silent, _, ?_, rfl, rfl⟩
    simp only [execute, bind_eq_ok_iff, arithmetic_eq_ok_iff, pure_eq_ok_iff, true_and]
    exact ⟨(), _, ⟨_, _, h1, h2, rfl⟩, rfl⟩
  | cmp h1 h2 =>
    refine ⟨.silent, _, ?_, rfl, rfl⟩
    simp only [execute, bind_eq_ok_iff, compare_eq_ok_iff, pure_eq_ok_iff, true_and]
    exact ⟨(), _, ⟨_, _, h1, h2, rfl⟩, rfl⟩
  | prn h1 =>
    refine ⟨.text _ 2, p, ?_, rfl, rfl⟩
    simp only [execute, bind_eq_ok_iff, registerOperand_eq_ok_iff, pure_eq_ok_iff]
    exact ⟨_, _, ⟨_, h1, rfl, rfl⟩, rfl, rfl⟩
  | pra h1 =>
    refine ⟨.text _ 2, p, ?_, rfl, rfl⟩
    simp only [execute, bind_eq_ok_iff, registerOperand_eq_ok_iff, pure_eq_ok_iff]
    exact ⟨_, _, ⟨_, h1, rfl, rfl⟩, rfl, rfl⟩
  | push h1 hsp hm =>
    refine ⟨.silent, _, ?_, rfl, rfl⟩
    simp only [execute, bind_eq_ok_iff, registerOperand_eq_ok_iff, push_eq_ok_iff,
      pushByte_eq_ok_iff, advance_eq_ok_iff, pure_eq_ok_iff, true_and]
    exact ⟨_, _, ⟨_, h1, rfl, rfl⟩, (), _, ⟨_, rfl, hsp, _, hm, rfl⟩, (), _, rfl, rfl⟩
  | pop h1 hr hb hsp =>
    refine ⟨.silent, _, ?_, rfl, rfl⟩
    simp only [execute, bind_eq_ok_iff, operand_eq_ok_iff, popInto_eq_ok_iff,
      natCast_register_eq_iff, advance_eq_ok_iff, pure_eq_ok_iff, true_and]
    refine ⟨_, _, ⟨h1, rfl⟩, (), _, ⟨_, _, rfl, hb, ?_, rfl⟩, (), _, rfl, ?_⟩
    · rwa [sp_withRegister_of_ne hr]
    · rw [sp_withRegister_of_ne hr]
      rfl
  | popSp h1 hb hsp =>
    refine ⟨.silent, _, ?_, rfl, rfl⟩
    simp only [execute, bind_eq_ok_iff, operand_eq_ok_iff, popInto_eq_ok_iff,
      natCast_register_eq_iff, advance_eq_ok_iff, pure_eq_ok_iff, true_and]
    refine ⟨_, _, ⟨h1, rfl⟩, (), _, ⟨.sp, _, rfl, hb, ?_, rfl⟩, (), _, rfl, ?_⟩
    · rwa [sp_withRegister_sp]
    · rw [sp_withRegister_sp]
      simp only [withRegister, Registers.set_set]
      rfl
  | call h1 hsp hb hm =>
    refine ⟨.silent, _, ?_, rfl, rfl⟩
    simp only [execute, bind_eq_ok_iff, registerOperand_eq_ok_iff, get_eq_ok_iff, push_eq_ok_iff,
      pushByte_eq_ok_iff, jump_eq_ok_iff, pure_eq_ok_iff, true_and]
    exact ⟨_, _, ⟨_, h1, rfl, rfl⟩, _, _, ⟨rfl, rfl⟩, (), _, ⟨_, hb, hsp, _, hm, rfl⟩, (), _,
      rfl, rfl⟩
  | ret hb hsp =>
    refine ⟨.silent, _, ?_, rfl, rfl⟩
    simp only [execute, bind_eq_ok_iff, popPc_eq_ok_iff, pure_eq_ok_iff, true_and]
    exact ⟨(), _, ⟨hsp, _, hb, rfl⟩, rfl⟩
  | jmp h1 =>
    refine ⟨.silent, _, ?_, rfl, rfl⟩
    simp only [execute, bind_eq_ok_iff, registerOperand_eq_ok_iff, jump_eq_ok_iff, pure_eq_ok_iff,
      true_and]
    exact ⟨_, _, ⟨_, h1, rfl, rfl⟩, (), _, rfl, rfl⟩
  | jeqTaken heq h1 | jneTaken heq h1 =>
    refine ⟨.silent, _, ?_, rfl, rfl⟩
    simp only [execute, bind_eq_ok_iff, jumpIf_eq_ok_iff, pure_eq_ok_iff, true_and]
    exact ⟨(), _, .inl ⟨heq, _, h1, rfl⟩, rfl⟩
  | jeqPassed heq | jnePassed heq =>
    refine ⟨.silent, _, ?_, rfl, rfl⟩
    simp only [execute, bind_eq_ok_iff, jumpIf_eq_ok_iff, pure_eq_ok_iff, true_and]
    exact ⟨(), _, .inr ⟨heq, rfl⟩, rfl⟩
  | st h1 h2 hm =>
    refine ⟨.silent, _, ?_, rfl, rfl⟩
    simp only [execute, bind_eq_ok_iff, registerOperand_eq_ok_iff, storeByte_eq_ok_iff,
      advance_eq_ok_iff, pure_eq_ok_iff, true_and]
    exact ⟨_, _, ⟨_, h1, rfl, rfl⟩, _, _, ⟨_, h2, rfl, rfl⟩, (), _, ⟨_, hm, rfl⟩, (), _, rfl, rfl⟩
  | iret hm hroom hrs hsp hback =>
    refine ⟨.silent, _, ?_, rfl, rfl⟩
    simp only [execute, bind_eq_ok_iff, returnFromInterrupt_eq_ok_iff, pure_eq_ok_iff, true_and]
    exact ⟨(), _, ⟨_, _, _, hm, hroom, hrs, hsp, hback, rfl⟩, rfl⟩
  | hlt => exact ⟨.silent, _, rfl, rfl, rfl⟩

/-- A row without a text is what the operation does. -/
theorem execute_of_silent_row {op : Operation} (h : Row p op q none) :
    execute op p = .ok .silent q := by
  obtain ⟨out, r, hexec, rfl, htext⟩ := execute_of_row h
  cases out with
  | silent => exact hexec
  | text s width => exact nomatch htext

/-- **A row leads to one processor only,** with one text. -/
theorem Row.unique {op : Operation} {text more : Option String} {r : Processor}
    (h : Row p op q text) (h' : Row p op r more) : q = r ∧ text = more := by
  obtain ⟨out, s, hs, rfl, rfl⟩ := execute_of_row h
  obtain ⟨out', s', hs', rfl, rfl⟩ := execute_of_row h'
  rw [hs] at hs'
  cases hs'
  exact ⟨rfl, rfl⟩

end Processor

end Ls8
