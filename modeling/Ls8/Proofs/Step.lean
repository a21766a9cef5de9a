import Ls8.Execution

/-
  When a step succeeds, and what it leaves then.

  A step succeeds exactly if all its parts do, one after the other (`bind_eq_ok_iff`), and each part
  has a lemma of the form "it gives this result and leaves this processor if and only if …".  From
  them the success of a whole operation is read off as a list of conditions on the processor that it
  starts from; a proof about an operation never unfolds a part.

  The conditions are put in terms of what stands in memory: `Operand k b` says that the byte `k`
  places behind the opcode is `b`, `Names k r` that this byte is the index of register `r`.
-/

namespace Ls8.Processor

variable {α β : Type} {p q r : Processor} {u : Unit}

/-! ## Composition -/

theorem bind_of_ok {x : Step α} {f : α → Step β} {a : α} (h : x p = .ok a q) :
    (x >>= f) p = f a q := by
  show EStateM.bind x f p = f a q
  rw [EStateM.bind, h]

theorem bind_of_error {x : Step α} {f : α → Step β} {e : Fault} (h : x p = .error e q) :
    (x >>= f) p = .error e q := by
  show EStateM.bind x f p = .error e q
  rw [EStateM.bind, h]

/-- **A composed step succeeds exactly if both parts do.** -/
theorem bind_eq_ok_iff {x : Step α} {f : α → Step β} {b : β} :
    (x >>= f) p = .ok b r ↔ ∃ a q, x p = .ok a q ∧ f a q = .ok b r := by
  cases h : x p with
  | ok a q =>
    rw [bind_of_ok h]
    constructor
    · exact fun hf => ⟨a, q, rfl, hf⟩
    · rintro ⟨_, _, hx, hf⟩
      cases hx
      exact hf
  | error e q =>
    rw [bind_of_error h]
    constructor
    · exact fun hf => nomatch hf
    · rintro ⟨_, _, hx, _⟩
      cases hx

/-- A composed step fails exactly if one of its parts does. -/
theorem bind_eq_error_iff {x : Step α} {f : α → Step β} {e : Fault} :
    (x >>= f) p = .error e r ↔
      x p = .error e r ∨ ∃ a q, x p = .ok a q ∧ f a q = .error e r := by
  cases h : x p with
  | ok a q =>
    rw [bind_of_ok h]
    constructor
    · exact fun hf => .inr ⟨a, q, rfl, hf⟩
    · rintro (hx | ⟨_, _, hx, hf⟩)
      · cases hx
      · cases hx
        exact hf
  | error e' q =>
    rw [bind_of_error h]
    constructor
    · rintro ⟨⟩
      exact .inl rfl
    · rintro (hx | ⟨_, _, hx, _⟩)
      · cases hx
        rfl
      · cases hx

theorem pure_eq_ok_iff {a b : α} : (pure a : Step α) p = .ok b q ↔ b = a ∧ q = p := by
  show EStateM.Result.ok a p = .ok b q ↔ _
  rw [EStateM.Result.ok.injEq, eq_comm, @eq_comm _ p]

theorem get_eq_ok_iff {a : Processor} : (get : Step Processor) p = .ok a q ↔ a = p ∧ q = p := by
  show EStateM.Result.ok p p = .ok a q ↔ _
  rw [EStateM.Result.ok.injEq, eq_comm, @eq_comm _ p]

theorem modify_eq_ok_iff {f : Processor → Processor} :
    (modify f : Step Unit) p = .ok u q ↔ q = f p := by
  show EStateM.Result.ok () (f p) = .ok u q ↔ _
  simp [eq_comm]

theorem jump_eq_ok_iff {a : Int} : jump a p = .ok u q ↔ q = { p with pc := a } :=
  modify_eq_ok_iff (f := fun p => { p with pc := a })

theorem advance_eq_ok_iff {width : Nat} :
    advance width p = .ok u q ↔ q = { p with pc := p.pc + width } :=
  modify_eq_ok_iff (f := fun p => { p with pc := p.pc + width })

/-! ## Operands -/

/-- The byte `k` places behind the opcode. -/
def Operand (p : Processor) (k : Int) (b : UInt8) : Prop := p.memory.get? (p.pc + k) = some b

/-- The byte `k` places behind the opcode is the index of a register. -/
def Names (p : Processor) (k : Int) (r : Register) : Prop := p.Operand k (UInt8.ofNat r)

/-- The byte that is the index of a register. -/
theorem natCast_register_eq_iff {s : Register} {b : UInt8} :
    ((s : Nat) : Int) = b.toNat ↔ b = UInt8.ofNat s := by
  rw [← UInt8.toNat_inj, UInt8.toNat_ofNat']
  have := s.isLt
  omega

/-- The register whose index is the byte `k` places behind the opcode, if there is one. -/
def named? (p : Processor) (k : Int) : Option Register :=
  p.memory.get? (p.pc + k) >>= fun b => register? b.toNat

theorem named?_eq_some_iff {k : Int} {s : Register} : p.named? k = some s ↔ p.Names k s := by
  rw [named?, Option.bind_eq_bind, Option.bind_eq_some_iff]
  simp only [register?_eq_some_iff, natCast_register_eq_iff]
  constructor
  · rintro ⟨_, hb, rfl⟩
    exact hb
  · exact fun h => ⟨_, h, rfl⟩

/-- A byte is the index of one register at most. -/
theorem Names.unique {k : Int} {s t : Register} (h : p.Names k s) (h' : p.Names k t) : s = t :=
  Option.some.inj ((named?_eq_some_iff.mpr h).symm.trans (named?_eq_some_iff.mpr h'))

theorem operand_eq_ok_iff {k : Int} {b : UInt8} :
    operand k p = .ok b q ↔ p.Operand k b ∧ q = p :=
  readByte_ok_iff

theorem readRegister_eq_ok_iff {i : Int} {b : UInt8} :
    readRegister i p = .ok b q ↔
      ∃ s : Register, ((s : Nat) : Int) = i ∧ b = p.registers.get s ∧ q = p := by
  simp only [← register?_eq_some_iff, readRegister]
  cases register? i <;> simp [eq_comm]

theorem setRegister_eq_ok_iff {i : Int} {b : UInt8} :
    setRegister i b p = .ok u q ↔
      ∃ s : Register, ((s : Nat) : Int) = i ∧ q = p.withRegister s b := by
  simp only [← register?_eq_some_iff, setRegister]
  cases register? i <;> simp [eq_comm]

/-- An operand register is read exactly if its byte names one. -/
theorem registerOperand_eq_ok_iff {k : Int} {b : UInt8} :
    registerOperand k p = .ok b q ↔ ∃ s, p.Names k s ∧ b = p.registers.get s ∧ q = p := by
  simp only [registerOperand, bind_eq_ok_iff, operand_eq_ok_iff, readRegister_eq_ok_iff,
    natCast_register_eq_iff]
  constructor
  · rintro ⟨_, _, ⟨hi, rfl⟩, s, rfl, rfl, rfl⟩
    exact ⟨s, hi, rfl, rfl⟩
  · rintro ⟨s, hs, rfl, rfl⟩
    exact ⟨_, _, ⟨hs, rfl⟩, s, rfl, rfl, rfl⟩

/-! ## Memory and the stack -/

theorem storeByte_eq_ok_iff {a : Int} {b : UInt8} :
    storeByte a b p = .ok u q ↔ ∃ m, p.memory.store a b = .ok m ∧ q = { p with memory := m } := by
  rw [storeByte]
  cases p.memory.store a b <;> simp [eq_comm]

theorem lowerSp_eq_ok_iff : lowerSp p = .ok u q ↔ p.sp ≠ 0 ∧ q = p.withRegister .sp (p.sp - 1) := by
  rw [lowerSp]
  split <;> simp_all [eq_comm]

theorem raiseSp_eq_ok_iff :
    raiseSp p = .ok u q ↔ p.sp ≠ 0xff ∧ q = p.withRegister .sp (p.sp + 1) := by
  rw [raiseSp]
  split <;> simp_all [eq_comm]

theorem top_eq_ok_iff {b : UInt8} :
    top p = .ok b q ↔ p.memory.get? p.sp.toNat = some b ∧ q = p :=
  readByte_ok_iff

@[simp] theorem sp_withRegister_sp (p : Processor) (b : UInt8) : (p.withRegister .sp b).sp = b :=
  Registers.get_set_self _ _ _

@[simp] theorem memory_withRegister (p : Processor) (s : Register) (b : UInt8) :
    (p.withRegister s b).memory = p.memory := rfl

@[simp] theorem registers_withRegister (p : Processor) (s : Register) (b : UInt8) :
    (p.withRegister s b).registers = p.registers.set s b := rfl

/-- A pointer that is not zero is lowered without wrapping. -/
theorem toNat_sub_one {b : UInt8} (h : b ≠ 0) : (b - 1).toNat = b.toNat - 1 := by
  have hb : b.toNat ≠ 0 := fun h0 => h (UInt8.toNat_inj.mp h0)
  have := b.toNat_lt
  rw [UInt8.toNat_sub]
  simp
  omega

/-- A pointer below 255 is raised without wrapping. -/
theorem toNat_add_one {b : UInt8} (h : b ≠ 0xff) : (b + 1).toNat = b.toNat + 1 := by
  have hb : b.toNat ≠ 255 := fun h0 => h (UInt8.toNat_inj.mp h0)
  have := b.toNat_lt
  rw [UInt8.toNat_add]
  simp
  omega

/-- **A push succeeds** exactly if there is room below the pointer and memory at the new top. -/
theorem pushByte_eq_ok_iff {b : UInt8} :
    pushByte b p = .ok u q ↔ p.sp ≠ 0 ∧ ∃ m, p.memory.store (p.sp - 1).toNat b = .ok m ∧
      q = { p.withRegister .sp (p.sp - 1) with memory := m } := by
  simp only [pushByte, bind_eq_ok_iff, lowerSp_eq_ok_iff, storeTop, storeByte_eq_ok_iff]
  constructor
  · rintro ⟨_, _, ⟨h0, rfl⟩, m, hm, rfl⟩
    rw [sp_withRegister_sp] at hm
    exact ⟨h0, m, hm, rfl⟩
  · rintro ⟨h0, m, hm, rfl⟩
    exact ⟨(), _, ⟨h0, rfl⟩, m, by rw [sp_withRegister_sp]; exact hm, rfl⟩

theorem push_eq_ok_iff {value : Int} :
    push value p = .ok u q ↔ ∃ b : UInt8, (b.toNat : Int) = value ∧ pushByte b p = .ok u q := by
  rw [push]
  cases h : toByte? value with
  | none =>
    simp only [← toByte?_eq_some_iff, h, reduceCtorEq, false_and, exists_false, iff_false]
    exact fun he => nomatch he
  | some b =>
    simp only [← toByte?_eq_some_iff, h, Option.some.injEq, exists_eq_left']

/-- **A pop succeeds** exactly if there is memory at the top and the pointer, as it is after the
    destination was written, is not the last address. -/
theorem popInto_eq_ok_iff {i : Int} :
    popInto i p = .ok u q ↔ ∃ (s : Register) (b : UInt8), ((s : Nat) : Int) = i ∧
      p.memory.get? p.sp.toNat = some b ∧ (p.withRegister s b).sp ≠ 0xff ∧
      q = (p.withRegister s b).withRegister .sp ((p.withRegister s b).sp + 1) := by
  simp only [popInto, bind_eq_ok_iff, top_eq_ok_iff, setRegister_eq_ok_iff, raiseSp_eq_ok_iff]
  constructor
  · rintro ⟨b, _, ⟨hb, rfl⟩, _, _, ⟨s, hs, rfl⟩, hsp, rfl⟩
    exact ⟨s, b, hs, hb, hsp, rfl⟩
  · rintro ⟨s, b, hs, hb, hsp, rfl⟩
    exact ⟨b, _, ⟨hb, rfl⟩, (), _, ⟨s, hs, rfl⟩, hsp, rfl⟩

theorem popPc_eq_ok_iff :
    popPc p = .ok u q ↔ p.sp ≠ 0xff ∧ ∃ b, p.memory.get? p.sp.toNat = some b ∧
      q = { p.withRegister .sp (p.sp + 1) with pc := b.toNat } := by
  simp only [popPc, bind_eq_ok_iff, top_eq_ok_iff, jump_eq_ok_iff, raiseSp_eq_ok_iff]
  constructor
  · rintro ⟨b, _, ⟨hb, rfl⟩, _, _, rfl, hsp, rfl⟩
    exact ⟨hsp, b, hb, rfl⟩
  · rintro ⟨hsp, b, hb, rfl⟩
    exact ⟨b, _, ⟨hb, rfl⟩, (), _, rfl, hsp, rfl⟩

/-! ## The entry of an interrupt -/

/-- The processor once a line has been acknowledged. -/
def acknowledged (p : Processor) (line : Register) : Processor :=
  { p.withRegister .status (p.registers.get .status &&& ~~~ lineBit line) with
    interruptsEnabled := false }

/-- The saving of the program counter and the registers, and the jump to the handler. -/
theorem enterInterrupt_eq (line : Register) (p : Processor) :
    enterInterrupt line p = (push p.pc >>= fun _ =>
      [0, 1, 2, 3, 4, 5, 6, 7].forM pushRegister >>= fun _ =>
        readByte (vectorTable + (line : Nat)) >>= fun b => jump b.toNat) (p.acknowledged line) :=
  rfl

end Ls8.Processor
