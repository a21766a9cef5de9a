import Ls8.Proofs.InstructionTable

/-
  What an operation does without looking at the pending lines.

  Two processors are alike if they differ at most in the register of pending lines.  An operation
  that does not read that register as an operand does the same to both: it ends in the same way, with
  the same output or the same fault, and leaves them alike.  It may well write the register, with a
  value that is the same for both.

  1. **Results** — `ResultAlike`: two results are the same up to likeness, and composed steps inherit
     that from their parts (`ResultAlike.bind`).

  2. **Parts** — none of them looks at the register except the reading of an operand that names it.

  3. **Reading** — `ReadsAt r ks`: the operands at the offsets `ks`, read in this order, get as far as
     one that names `r`.  Which offsets an operation reads as registers is told by `sources`.

  Main statement: an operation that does not read the register is blind to it (`execute_alike`).
-/

namespace Ls8

/-! ## Likeness -/

/-- Register files that differ at most in the pending lines. -/
def Registers.Alike (a b : Registers) : Prop := ∀ r, r ≠ .status → b.get r = a.get r

theorem Registers.Alike.set {a b : Registers} (h : a.Alike b) (r : Register) (v : UInt8) :
    (a.set r v).Alike (b.set r v) := by
  intro s hs
  rw [get_set, get_set]
  split
  · rfl
  · exact h s hs

namespace Processor

variable {α β : Type} {p q r : Processor}

/-- **Processors that differ at most in the pending lines.** -/
def Alike (p q : Processor) : Prop := ∃ rs, p.registers.Alike rs ∧ q = { p with registers := rs }

theorem Alike.refl (p : Processor) : p.Alike p := ⟨p.registers, fun _ _ => rfl, rfl⟩

theorem Alike.symm (h : p.Alike q) : q.Alike p := by
  obtain ⟨rs, hrs, rfl⟩ := h
  exact ⟨p.registers, fun s hs => (hrs s hs).symm, rfl⟩

theorem Alike.trans (h : p.Alike q) (h' : q.Alike r) : p.Alike r := by
  obtain ⟨rs, hrs, rfl⟩ := h
  obtain ⟨rs', hrs', rfl⟩ := h'
  exact ⟨rs', fun s hs => (hrs' s hs).trans (hrs s hs), rfl⟩

theorem Alike.get (h : p.Alike q) {s : Register} (hs : s ≠ .status) :
    q.registers.get s = p.registers.get s := by
  obtain ⟨rs, hrs, rfl⟩ := h
  exact hrs s hs

theorem Alike.sp (h : p.Alike q) : q.sp = p.sp := h.get (by decide)

theorem Alike.memory (h : p.Alike q) : q.memory = p.memory := by
  obtain ⟨rs, _, rfl⟩ := h
  rfl

theorem Alike.pc (h : p.Alike q) : q.pc = p.pc := by
  obtain ⟨rs, _, rfl⟩ := h
  rfl

theorem Alike.equal (h : p.Alike q) : q.equal = p.equal := by
  obtain ⟨rs, _, rfl⟩ := h
  rfl

theorem Alike.ir (h : p.Alike q) : q.ir = p.ir := by
  obtain ⟨rs, _, rfl⟩ := h
  rfl

theorem Alike.halted (h : p.Alike q) : q.halted = p.halted := by
  obtain ⟨rs, _, rfl⟩ := h
  rfl

theorem Alike.interruptsEnabled (h : p.Alike q) : q.interruptsEnabled = p.interruptsEnabled := by
  obtain ⟨rs, _, rfl⟩ := h
  rfl

theorem Alike.withRegister (h : p.Alike q) (s : Register) (b : UInt8) :
    (p.withRegister s b).Alike (q.withRegister s b) := by
  obtain ⟨rs, hrs, rfl⟩ := h
  exact ⟨rs.set s b, hrs.set s b, rfl⟩

/-- Whatever becomes of the pending lines, the processor stays alike. -/
theorem alike_withStatus (p : Processor) (b : UInt8) : p.Alike (p.withRegister .status b) :=
  ⟨p.registers.set .status b, fun _ hs => Registers.get_set_ne _ hs _, rfl⟩

/-! ## Results -/

/-- **Results that are the same** up to likeness of the processors left. -/
inductive ResultAlike {α : Type} :
    EStateM.Result Fault Processor α → EStateM.Result Fault Processor α → Prop where
  | ok {p q : Processor} (a : α) (h : p.Alike q) : ResultAlike (.ok a p) (.ok a q)
  | error {p q : Processor} (e : Fault) (h : p.Alike q) : ResultAlike (.error e p) (.error e q)

/-- **A composed step is blind** if its parts are; the second part may rely on the first one having
    succeeded. -/
theorem ResultAlike.bind {x : Step α} {f : α → Step β} (hx : ResultAlike (x p) (x q))
    (hf : ∀ a p' q', x p = .ok a p' → p'.Alike q' → ResultAlike (f a p') (f a q')) :
    ResultAlike ((x >>= f) p) ((x >>= f) q) := by
  cases hp : x p with
  | ok a p' =>
    rw [hp] at hx
    generalize hq : x q = result at hx
    cases hx with
    | ok _ h =>
      rw [bind_of_ok hp, bind_of_ok hq]
      exact hf a p' _ hp h
  | error e p' =>
    rw [hp] at hx
    generalize hq : x q = result at hx
    cases hx with
    | error _ h =>
      rw [bind_of_error hp, bind_of_error hq]
      exact .error e h

/-- The same for a second part that needs to know nothing. -/
theorem ResultAlike.andThen {x : Step α} {f : α → Step β} (hx : ResultAlike (x p) (x q))
    (hf : ∀ a p' q', p'.Alike q' → ResultAlike (f a p') (f a q')) :
    ResultAlike ((x >>= f) p) ((x >>= f) q) :=
  hx.bind fun a p' q' _ => hf a p' q'

/-! ## The parts -/

theorem pure_alike (h : p.Alike q) (a : α) :
    ResultAlike ((pure a : Step α) p) ((pure a : Step α) q) :=
  .ok a h

theorem jump_alike (h : p.Alike q) (a : Int) : ResultAlike (jump a p) (jump a q) := by
  obtain ⟨rs, hrs, rfl⟩ := h
  exact .ok () ⟨rs, hrs, rfl⟩

theorem advance_alike (h : p.Alike q) (width : Nat) :
    ResultAlike (advance width p) (advance width q) := by
  obtain ⟨rs, hrs, rfl⟩ := h
  exact .ok () ⟨rs, hrs, rfl⟩

theorem readByte_alike (h : p.Alike q) (a : Int) : ResultAlike (readByte a p) (readByte a q) := by
  rw [readByte, readByte, h.memory]
  cases p.memory.read a with
  | ok b => exact .ok b h
  | error e => exact .error _ h

theorem storeByte_alike (h : p.Alike q) (a : Int) (b : UInt8) :
    ResultAlike (storeByte a b p) (storeByte a b q) := by
  rw [storeByte, storeByte, h.memory]
  cases p.memory.store a b with
  | error e => exact .error _ h
  | ok m =>
    obtain ⟨rs, hrs, rfl⟩ := h
    exact .ok () ⟨rs, hrs, rfl⟩

theorem operand_alike (h : p.Alike q) (k : Int) : ResultAlike (operand k p) (operand k q) := by
  rw [operand, operand, h.pc]
  exact readByte_alike h _

/-- Setting a register to the same value, be it the pending lines. -/
theorem setRegister_alike (h : p.Alike q) (i : Int) (b : UInt8) :
    ResultAlike (setRegister i b p) (setRegister i b q) := by
  rw [setRegister, setRegister]
  cases register? i with
  | none => exact .error _ h
  | some s => exact .ok () (h.withRegister s b)

/-- Reading any register but the pending lines. -/
theorem readRegister_alike (h : p.Alike q) {i : Int} (hi : register? i ≠ some .status) :
    ResultAlike (readRegister i p) (readRegister i q) := by
  rw [readRegister, readRegister]
  cases hs : register? i with
  | none => exact .error _ h
  | some s =>
    rw [hs] at hi
    simp only
    rw [h.get fun he => hi (by rw [he])]
    exact .ok _ h

/-- Reading the register that an operand names, unless that is the pending lines. -/
theorem registerOperand_alike (h : p.Alike q) {k : Int} (hk : ¬ p.Names k .status) :
    ResultAlike (registerOperand k p) (registerOperand k q) := by
  refine (operand_alike h k).bind fun b p' q' hb h' => readRegister_alike h' fun hs => ?_
  obtain ⟨hbyte, _⟩ := operand_eq_ok_iff.mp hb
  have hb : b = UInt8.ofNat (Register.status : Nat) := by
    rw [← natCast_register_eq_iff]
    have := register?_eq_some_iff.mp hs
    have := b.toNat_lt
    omega
  rw [hb] at hbyte
  exact hk hbyte

theorem lowerSp_alike (h : p.Alike q) : ResultAlike (lowerSp p) (lowerSp q) := by
  rw [lowerSp, lowerSp, h.sp]
  split
  · exact .error _ h
  · exact .ok () (h.withRegister _ _)

theorem raiseSp_alike (h : p.Alike q) : ResultAlike (raiseSp p) (raiseSp q) := by
  rw [raiseSp, raiseSp, h.sp]
  split
  · exact .error _ h
  · exact .ok () (h.withRegister _ _)

theorem top_alike (h : p.Alike q) : ResultAlike (top p) (top q) := by
  rw [top, top, h.sp]
  exact readByte_alike h _

theorem pushByte_alike (h : p.Alike q) (b : UInt8) :
    ResultAlike (pushByte b p) (pushByte b q) := by
  refine (lowerSp_alike h).andThen fun _ p' q' h' => ?_
  rw [storeTop, storeTop, h'.sp]
  exact storeByte_alike h' _ _

theorem push_alike (h : p.Alike q) (value : Int) :
    ResultAlike (push value p) (push value q) := by
  rw [push]
  cases toByte? value with
  | some b => exact pushByte_alike h b
  | none => exact .error _ h

theorem popInto_alike (h : p.Alike q) (i : Int) : ResultAlike (popInto i p) (popInto i q) :=
  (top_alike h).andThen fun b _ _ h => (setRegister_alike h i b).andThen fun _ _ _ h =>
    raiseSp_alike h

theorem popPc_alike (h : p.Alike q) : ResultAlike (popPc p) (popPc q) :=
  (top_alike h).andThen fun b _ _ h => (jump_alike h b.toNat).andThen fun _ _ _ h =>
    raiseSp_alike h

theorem forM_popInto_alike (h : p.Alike q) (is : List Int) :
    ResultAlike (is.forM popInto p) (is.forM popInto q) := by
  induction is generalizing p q with
  | nil => exact .ok _ h
  | cons i is ih => exact (popInto_alike h i).andThen fun _ _ _ h => ih h

/-! ## What an operation reads -/

/-- **The operands that an operation reads as registers,** by their offsets and in the order of
    reading.  A conditional jump reads its operand only if it is taken; a register that is only
    written is not read. -/
def sources (p : Processor) : Operation → List Int
  | .add | .mul => [2, 1]
  | .cmp | .st => [1, 2]
  | .prn | .pra | .push | .call | .jmp => [1]
  | .jeq => if p.equal = some true then [1] else []
  | .jne => if p.equal = some false then [1] else []
  | .nop | .ldi | .pop | .ret | .iret | .hlt => []

/-- Whether reading operands in order gets to a register: an operand that names none is refused, and
    those behind it are not read. -/
def ReadsAt (p : Processor) (r : Register) : List Int → Prop
  | [] => False
  | k :: ks => p.Names k r ∨ ((∃ s, p.Names k s) ∧ p.ReadsAt r ks)

/-- Whether an operation reads a register. -/
def Reads (p : Processor) (op : Operation) (r : Register) : Prop := p.ReadsAt r (p.sources op)

instance (p : Processor) (k : Int) (r : Register) : Decidable (p.Names k r) :=
  inferInstanceAs (Decidable (p.memory.get? (p.pc + k) = some (UInt8.ofNat r)))

instance decidableReadsAt (p : Processor) (r : Register) : ∀ ks, Decidable (p.ReadsAt r ks)
  | [] => inferInstanceAs (Decidable False)
  | k :: ks =>
    have := decidableReadsAt p r ks
    inferInstanceAs (Decidable (p.Names k r ∨ ((∃ s, p.Names k s) ∧ p.ReadsAt r ks)))

instance (p : Processor) (op : Operation) (r : Register) : Decidable (p.Reads op r) :=
  inferInstanceAs (Decidable (p.ReadsAt r (p.sources op)))

/-- What is read depends on memory, the program counter and the outcome of the last comparison. -/
theorem reads_congr (hmemory : q.memory = p.memory) (hpc : q.pc = p.pc) (hequal : q.equal = p.equal)
    (op : Operation) (s : Register) : q.Reads op s ↔ p.Reads op s := by
  have hsources : q.sources op = p.sources op := by cases op <;> simp only [sources, hequal]
  rw [Reads, Reads, hsources]
  induction p.sources op with
  | nil => exact Iff.rfl
  | cons k ks ih => simp only [ReadsAt, Names, Operand, hmemory, hpc, ih]

/-- Two operands, neither of which is the register of pending lines as far as they are read. -/
theorem two_operands_alike {β : Type} (h : p.Alike q) {k₁ k₂ : Int}
    (hreads : ¬ p.ReadsAt .status [k₁, k₂]) {f : UInt8 → UInt8 → Step β}
    (hf : ∀ a b p' q', p'.Alike q' → ResultAlike (f a b p') (f a b q')) :
    ResultAlike ((registerOperand k₁ >>= fun a => registerOperand k₂ >>= fun b => f a b) p)
      ((registerOperand k₁ >>= fun a => registerOperand k₂ >>= fun b => f a b) q) := by
  simp only [ReadsAt, or_false, and_false, not_or, not_and] at hreads
  refine (registerOperand_alike h hreads.1).bind fun a p' q' ha h' => ?_
  obtain ⟨s, hs, _, rfl⟩ := registerOperand_eq_ok_iff.mp ha
  exact (registerOperand_alike h' (hreads.2 ⟨s, hs⟩)).andThen fun b _ _ h => hf a b _ _ h

/-! ## The operations -/

theorem arithmetic_alike (h : p.Alike q) {op : AluOperation}
    (hreads : ¬ p.ReadsAt .status [2, 1]) :
    ResultAlike (arithmetic op p) (arithmetic op q) := by
  simp only [ReadsAt, or_false, and_false, not_or, not_and] at hreads
  refine (operand_alike h 1).bind fun target p₁ q₁ htarget h₁ => ?_
  obtain ⟨hbyte, rfl⟩ := operand_eq_ok_iff.mp htarget
  refine (registerOperand_alike h₁ hreads.1).bind fun b p₂ q₂ hb h₂ => ?_
  obtain ⟨s, hs, _, rfl⟩ := registerOperand_eq_ok_iff.mp hb
  -- the register named by the first byte is read here, without reading the byte again
  have htarget : register? target.toNat ≠ some .status := by
    intro he
    refine hreads.2 ⟨s, hs⟩ ?_
    rw [Names, ← natCast_register_eq_iff.mp (register?_eq_some_iff.mp he)]
    exact hbyte
  refine (readRegister_alike h₂ htarget).andThen fun a _ _ h => ?_
  exact (setRegister_alike h _ _).andThen fun _ _ _ h => advance_alike h 3

theorem compare_alike (h : p.Alike q) (hreads : ¬ p.ReadsAt .status [1, 2]) :
    ResultAlike (compare p) (compare q) := by
  refine two_operands_alike h hreads fun a b p' q' h' => ?_
  obtain ⟨rs, hrs, rfl⟩ := h'
  exact .ok () ⟨rs, hrs, rfl⟩

theorem jumpIf_alike (h : p.Alike q) {wanted : Bool}
    (hreads : ¬ p.ReadsAt .status (if p.equal = some wanted then [1] else [])) :
    ResultAlike (jumpIf wanted p) (jumpIf wanted q) := by
  by_cases heq : p.equal = some wanted
  · rw [if_pos heq] at hreads
    simp only [ReadsAt, or_false, and_false] at hreads
    rw [jumpIf_of_eq heq, jumpIf_of_eq (h.equal.trans heq)]
    exact (registerOperand_alike h hreads).andThen fun a _ _ h => jump_alike h a.toNat
  · rw [jumpIf_of_ne heq, jumpIf_of_ne fun he => heq (h.equal.symm.trans he)]
    exact advance_alike h 2

theorem returnFromInterrupt_alike (h : p.Alike q) :
    ResultAlike (returnFromInterrupt p) (returnFromInterrupt q) := by
  refine (forM_popInto_alike h _).andThen fun _ _ _ h => (popPc_alike h).andThen fun _ _ _ h => ?_
  obtain ⟨rs, hrs, rfl⟩ := h
  exact .ok () ⟨rs, hrs, rfl⟩

/-- A step without output. -/
theorem silent_alike {x : Step Unit} (h : ResultAlike (x p) (x q)) :
    ResultAlike ((x >>= fun _ => pure Output.silent) p) ((x >>= fun _ => pure Output.silent) q) :=
  h.andThen fun _ _ _ h => pure_alike h _

/-- **An operation is blind to the pending lines** unless it reads them as an operand. -/
theorem execute_alike {op : Operation} (h : p.Alike q) (hreads : ¬ p.Reads op .status) :
    ResultAlike (execute op p) (execute op q) := by
  rw [Reads] at hreads
  cases op with
  | nop => exact silent_alike (advance_alike h 1)
  | ldi =>
    refine (operand_alike h 1).andThen fun target _ _ h => ?_
    refine (operand_alike h 2).andThen fun value _ _ h => ?_
    exact (setRegister_alike h _ _).andThen fun _ _ _ h => silent_alike (advance_alike h 3)
  | add => exact silent_alike (arithmetic_alike h hreads)
  | mul => exact silent_alike (arithmetic_alike h hreads)
  | cmp => exact silent_alike (compare_alike h hreads)
  | prn | pra =>
    simp only [sources, ReadsAt, or_false, and_false] at hreads
    exact (registerOperand_alike h hreads).andThen fun value _ _ h => pure_alike h _
  | push =>
    simp only [sources, ReadsAt, or_false, and_false] at hreads
    refine (registerOperand_alike h hreads).andThen fun value _ _ h => ?_
    exact (push_alike h _).andThen fun _ _ _ h => silent_alike (advance_alike h 2)
  | pop =>
    refine (operand_alike h 1).andThen fun target _ _ h => ?_
    exact (popInto_alike h _).andThen fun _ _ _ h => silent_alike (advance_alike h 2)
  | call =>
    simp only [sources, ReadsAt, or_false, and_false] at hreads
    refine (registerOperand_alike h hreads).andThen fun target p' q' h => ?_
    have hget (p : Processor) : (get >>= fun s => push (s.pc + 2) >>= fun _ =>
        jump target.toNat >>= fun _ => pure Output.silent : Step Output) p =
          (push (p.pc + 2) >>= fun _ => jump target.toNat >>= fun _ => pure Output.silent) p := rfl
    rw [hget, hget, h.pc]
    exact (push_alike h _).andThen fun _ _ _ h => silent_alike (jump_alike h _)
  | ret => exact silent_alike (popPc_alike h)
  | jmp =>
    simp only [sources, ReadsAt, or_false, and_false] at hreads
    exact (registerOperand_alike h hreads).andThen fun target _ _ h => silent_alike (jump_alike h _)
  | jeq => exact silent_alike (jumpIf_alike h hreads)
  | jne => exact silent_alike (jumpIf_alike h hreads)
  | st =>
    refine two_operands_alike h hreads fun a b p' q' h => ?_
    exact (storeByte_alike h _ _).andThen fun _ _ _ h => silent_alike (advance_alike h 3)
  | iret => exact silent_alike (returnFromInterrupt_alike h)
  | hlt =>
    obtain ⟨rs, hrs, rfl⟩ := h
    exact .ok Output.silent ⟨rs, hrs, rfl⟩

end Processor

end Ls8
