import Ls8.Proofs.History
import Ls8.Proofs.StepFailure

/-
  Requests for interrupts, from the moment they are made until they are taken.

  A request is a bit of register 6.  Three things move such a bit besides the requests themselves:

    * the entry of an interrupt clears the bit of its line and no other one, also if it faults after
      that (`left_enterInterrupt_status`);
    * an operation whose destination is register 6 replaces all bits, but only if it gets as far as
      its write (`LoadsPending`);
    * everything else keeps the register (`KeepsPending`), whether it succeeds or faults half way.

  The second point is put in terms of the processor before the operation: which bytes have to be
  there for the write to happen, and which value is written.  An interrupt return writes register 6
  with its second pop, so it may do so and fault afterwards; a pop does so at the last address.

  Main statement: a request lasts until a tick takes it or replaces it, and it comes from the host,
  the timer or such a replacement (`request_lasts_until_taken`).
-/

namespace Ls8

variable {σ ε : Type}

namespace Processor

variable {α β : Type} {p q : Processor} {e : Fault}

/-! ## Steps that keep the pending lines -/

/-- **A step keeps the pending lines,** whether it succeeds or fails. -/
def KeepsPending (x : Step α) : Prop :=
  ∀ p, (left (x p)).registers.get .status = p.registers.get .status

theorem KeepsPending.bind {x : Step α} {f : α → Step β} (hx : KeepsPending x)
    (hf : ∀ a, KeepsPending (f a)) : KeepsPending (x >>= f) := by
  intro p
  have hfirst := hx p
  cases h : x p with
  | error e q =>
    rw [bind_of_error h]
    rwa [h] at hfirst
  | ok a q =>
    rw [bind_of_ok h, hf a q]
    rwa [h] at hfirst

theorem KeepsPending.forM {step : Int → Step Unit} {is : List Int}
    (h : ∀ i ∈ is, KeepsPending (step i)) : KeepsPending (is.forM step) :=
  left_forM (R := fun p q => q.registers.get .status = p.registers.get .status) (fun _ => rfl)
    (fun hpq hqr => hqr.trans hpq) is h

theorem keepsPending_pure (a : α) : KeepsPending (pure a : Step α) := fun _ => rfl

theorem keepsPending_jump (a : Int) : KeepsPending (jump a) := fun _ => rfl

theorem keepsPending_advance (width : Nat) : KeepsPending (advance width) := fun _ => rfl

theorem keepsPending_readByte (a : Int) : KeepsPending (readByte a) := by
  intro p
  rw [readByte]
  cases p.memory.read a <;> rfl

theorem keepsPending_storeByte (a : Int) (b : UInt8) : KeepsPending (storeByte a b) := by
  intro p
  rw [storeByte]
  cases p.memory.store a b <;> rfl

theorem keepsPending_operand (k : Int) : KeepsPending (operand k) :=
  fun p => keepsPending_readByte (p.pc + k) p

theorem keepsPending_readRegister (i : Int) : KeepsPending (readRegister i) := by
  intro p
  rw [readRegister]
  cases register? i <;> rfl

theorem keepsPending_registerOperand (k : Int) : KeepsPending (registerOperand k) :=
  (keepsPending_operand k).bind fun _ => keepsPending_readRegister _

theorem keepsPending_setRegister {i : Int} (hi : i ≠ 6) (b : UInt8) :
    KeepsPending (setRegister i b) := by
  intro p
  rw [setRegister]
  cases hr : register? i with
  | none => rfl
  | some r =>
    have hri := register?_eq_some_iff.mp hr
    refine Registers.get_set_ne _ (fun he => hi ?_) b
    rw [← hri, ← he]
    rfl

theorem keepsPending_lowerSp : KeepsPending lowerSp := by
  intro p
  rw [lowerSp]
  split
  · rfl
  · exact Registers.get_set_ne _ (by decide) _

theorem keepsPending_raiseSp : KeepsPending raiseSp := by
  intro p
  rw [raiseSp]
  split
  · rfl
  · exact Registers.get_set_ne _ (by decide) _

theorem keepsPending_top : KeepsPending top := fun p => keepsPending_readByte p.sp.toNat p

theorem keepsPending_pushByte (b : UInt8) : KeepsPending (pushByte b) :=
  keepsPending_lowerSp.bind fun _ p => keepsPending_storeByte p.sp.toNat b p

theorem keepsPending_push (value : Int) : KeepsPending (push value) := by
  rw [push]
  cases toByte? value with
  | some b => exact keepsPending_pushByte b
  | none => exact fun p => rfl

theorem keepsPending_pushRegister (i : Int) : KeepsPending (pushRegister i) :=
  keepsPending_lowerSp.bind fun _ => (keepsPending_readRegister i).bind fun b p =>
    keepsPending_storeByte p.sp.toNat b p

theorem keepsPending_popInto {i : Int} (hi : i ≠ 6) : KeepsPending (popInto i) :=
  keepsPending_top.bind fun b => (keepsPending_setRegister hi b).bind fun _ => keepsPending_raiseSp

theorem keepsPending_popPc : KeepsPending popPc :=
  keepsPending_top.bind fun b => (keepsPending_jump b.toNat).bind fun _ => keepsPending_raiseSp

theorem keepsPending_jumpIf (wanted : Bool) : KeepsPending (jumpIf wanted) := by
  intro p
  by_cases h : p.equal = some wanted
  · rw [jumpIf_of_eq h]
    exact (keepsPending_registerOperand 1).bind (fun _ => keepsPending_jump _) p
  · rw [jumpIf_of_ne h]
    rfl

theorem keepsPending_compare : KeepsPending compare :=
  (keepsPending_registerOperand 1).bind fun _ => (keepsPending_registerOperand 2).bind fun _ =>
    KeepsPending.bind (fun _ => rfl) fun _ => keepsPending_advance 3

/-- **The entry of an interrupt** clears the bit of its line and no other one, however it ends. -/
theorem left_enterInterrupt_status (line : Register) (p : Processor) :
    (left (enterInterrupt line p)).registers.get .status =
      p.registers.get .status &&& ~~~ lineBit line := by
  have hsave : KeepsPending (push p.pc >>= fun _ =>
      [0, 1, 2, 3, 4, 5, 6, 7].forM pushRegister >>= fun _ =>
        readByte (vectorTable + (line : Nat)) >>= fun b => jump b.toNat) :=
    (keepsPending_push p.pc).bind fun _ =>
      (KeepsPending.forM fun i _ => keepsPending_pushRegister i).bind fun _ =>
        (keepsPending_readByte _).bind fun b => keepsPending_jump b.toNat
  rw [enterInterrupt_eq, hsave]
  exact Registers.get_set_self _ _ _

/-! ## Operations that replace the pending lines -/

/-- The operations that may write a register of one's choice. -/
def WritesRegisters : Operation → Prop
  | .ldi | .add | .mul | .pop | .iret => True
  | _ => False

/-- An operation without a destination keeps the pending lines. -/
theorem keepsPending_execute {op : Operation} (hop : ¬ WritesRegisters op) :
    KeepsPending (execute op) := by
  cases op with
  | ldi | add | mul | pop | iret => exact absurd trivial hop
  | nop => exact (keepsPending_advance 1).bind fun _ => keepsPending_pure _
  | hlt => exact KeepsPending.bind (fun _ => rfl) fun _ => keepsPending_pure _
  | cmp => exact keepsPending_compare.bind fun _ => keepsPending_pure _
  | prn | pra => exact (keepsPending_registerOperand 1).bind fun _ => keepsPending_pure _
  | push =>
    refine (keepsPending_registerOperand 1).bind fun value => ?_
    exact (keepsPending_push _).bind fun _ => (keepsPending_advance 2).bind fun _ =>
      keepsPending_pure _
  | call =>
    refine (keepsPending_registerOperand 1).bind fun target => ?_
    refine KeepsPending.bind (fun _ => rfl) fun p => ?_
    exact (keepsPending_push _).bind fun _ => (keepsPending_jump _).bind fun _ =>
      keepsPending_pure _
  | ret => exact keepsPending_popPc.bind fun _ => keepsPending_pure _
  | jmp =>
    exact (keepsPending_registerOperand 1).bind fun _ => (keepsPending_jump _).bind fun _ =>
      keepsPending_pure _
  | jeq | jne => exact (keepsPending_jumpIf _).bind fun _ => keepsPending_pure _
  | st =>
    refine (keepsPending_registerOperand 1).bind fun a => ?_
    refine (keepsPending_registerOperand 2).bind fun value => ?_
    exact (keepsPending_storeByte _ _).bind fun _ => (keepsPending_advance 3).bind fun _ =>
      keepsPending_pure _

/-- **An operation gets as far as writing `b` over the pending lines.**  A pop writes before it
    raises the pointer.  An interrupt return pops the stack pointer first, and the pending lines from
    the place above the one that it then points to. -/
inductive LoadsPending (p : Processor) : Operation → UInt8 → Prop where
  | ldi {b : UInt8} (h1 : p.Names 1 .status) (h2 : p.Operand 2 b) : LoadsPending p .ldi b
  | add {s : Register} (h1 : p.Names 1 .status) (h2 : p.Names 2 s) :
    LoadsPending p .add (p.registers.get .status + p.registers.get s)
  | mul {s : Register} (h1 : p.Names 1 .status) (h2 : p.Names 2 s) :
    LoadsPending p .mul (p.registers.get .status * p.registers.get s)
  | pop {b : UInt8} (h1 : p.Names 1 .status) (hb : p.memory.get? p.sp.toNat = some b) :
    LoadsPending p .pop b
  | iret {m b : UInt8} (hm : p.memory.get? p.sp.toNat = some m) (hne : m ≠ 0xff)
    (hb : p.memory.get? (m.toNat + 1) = some b) : LoadsPending p .iret b

/-- Which byte was fetched last does not matter. -/
theorem LoadsPending.withIr {op : Operation} {b : UInt8} (h : LoadsPending p op b) (ir : UInt8) :
    LoadsPending { p with ir := ir } op b := by
  cases h with
  | ldi h1 h2 => exact .ldi h1 h2
  | add h1 h2 => exact .add (p := { p with ir := ir }) h1 h2
  | mul h1 h2 => exact .mul (p := { p with ir := ir }) h1 h2
  | pop h1 hb => exact .pop h1 hb
  | iret hm hne hb => exact .iret hm hne hb

/-- A pop of the pending lines writes the byte at the top, also where the pointer cannot be
    raised. -/
theorem left_popInto_status {b : UInt8} (hb : p.memory.get? p.sp.toNat = some b) :
    (left (popInto 6 p)).registers.get .status = b := by
  have htop : top p = .ok b p := top_eq_ok_iff.mpr ⟨hb, rfl⟩
  have hset : setRegister 6 b p = .ok () (p.withRegister .status b) :=
    setRegister_of_register .status b p
  rw [popInto, bind_of_ok htop, bind_of_ok hset, keepsPending_raiseSp]
  exact Registers.get_set_self _ _ _

/-- What comes after a step and keeps the pending lines leaves them as the step did. -/
theorem left_bind_status {x : Step α} {f : α → Step β} (hf : ∀ a, KeepsPending (f a)) :
    (left ((x >>= f) p)).registers.get .status = (left (x p)).registers.get .status := by
  cases h : x p with
  | ok a q =>
    rw [bind_of_ok h, hf a q]
    rfl
  | error e q =>
    rw [bind_of_error h]
    rfl

/-- An interrupt return pops the pending lines second; what it does after that keeps them. -/
theorem left_iret_status (p : Processor) :
    (left (execute .iret p)).registers.get .status =
      (left ((popInto 7 >>= fun _ => popInto 6) p)).registers.get .status := by
  have hparts : execute .iret = (popInto 7 >>= fun _ => popInto 6) >>= fun _ =>
      [5, 4, 3, 2, 1, 0].forM popInto >>= fun _ => popPc >>= fun _ =>
        modify (fun p : Processor => { p with interruptsEnabled := true }) >>= fun _ =>
          pure .silent := by
    show ((popInto 7 >>= fun _ => popInto 6 >>= fun _ => [5, 4, 3, 2, 1, 0].forM popInto) >>=
      fun _ => popPc >>= fun _ => modify _) >>= (fun _ => pure Output.silent) = _
    simp only [bind_assoc]
  have hpops : KeepsPending ([5, 4, 3, 2, 1, 0].forM popInto) :=
    KeepsPending.forM fun i hi => keepsPending_popInto (by rintro rfl; simp at hi)
  rw [hparts]
  exact left_bind_status fun _ => hpops.bind fun _ => keepsPending_popPc.bind fun _ =>
    KeepsPending.bind (fun _ => rfl) fun _ => keepsPending_pure _

/-- **An operation that gets to its write** leaves what it writes. -/
theorem left_execute_status_of_loads {op : Operation} {b : UInt8} (h : LoadsPending p op b) :
    (left (execute op p)).registers.get .status = b := by
  cases h with
  | ldi h1 h2 =>
    rw [left_of_ok (execute_of_silent_row (.ldi h1 h2))]
    exact Registers.get_set_self _ _ _
  | add h1 h2 =>
    rw [left_of_ok (execute_of_silent_row (.add h1 h2))]
    exact Registers.get_set_self _ _ _
  | mul h1 h2 =>
    rw [left_of_ok (execute_of_silent_row (.mul h1 h2))]
    exact Registers.get_set_self _ _ _
  | pop h1 hb =>
    have hread : operand 1 p = .ok (UInt8.ofNat (Register.status : Nat)) p :=
      operand_eq_ok_iff.mpr ⟨h1, rfl⟩
    have hpop : execute .pop p = (popInto 6 >>= fun _ => advance 2 >>= fun _ => pure .silent) p :=
      bind_of_ok hread
    rw [hpop, left_bind_status fun _ => (keepsPending_advance 2).bind fun _ => keepsPending_pure _]
    exact left_popInto_status hb
  | @iret m b hm hne hb =>
    have hfirst : popInto 7 p =
        .ok () ((p.withRegister .sp m).withRegister .sp ((p.withRegister .sp m).sp + 1)) :=
      popInto_eq_ok_iff.mpr ⟨.sp, m, rfl, hm, by rwa [sp_withRegister_sp], rfl⟩
    rw [left_iret_status, bind_of_ok hfirst]
    refine left_popInto_status ?_
    rw [sp_withRegister_sp, sp_withRegister_sp, toNat_add_one hne]
    exact hb

/-- A row that does not write the pending lines keeps them. -/
theorem Row.status_of_not_loads {op : Operation} {text : Option String} (hrow : Row p op q text)
    (h : ∀ b, ¬ LoadsPending p op b) : q.registers.get .status = p.registers.get .status := by
  cases hrow with
  | ldi h1 h2 =>
    refine Registers.get_set_ne _ (fun he => ?_) _
    exact h _ (.ldi (he ▸ h1) h2)
  | add h1 h2 =>
    refine Registers.get_set_ne _ (fun he => ?_) _
    exact h _ (.add (he ▸ h1) h2)
  | mul h1 h2 =>
    refine Registers.get_set_ne _ (fun he => ?_) _
    exact h _ (.mul (he ▸ h1) h2)
  | pop h1 hr hb hsp =>
    refine (Registers.get_set_ne _ (by decide) _).trans ?_
    refine Registers.get_set_ne _ (fun he => ?_) _
    exact h _ (.pop (he ▸ h1) hb)
  | iret hm hroom hrs hsp hback =>
    have hb := hrs .status (by decide)
    refine absurd (.iret hm (by rintro rfl; simp at hroom) (.trans (congrArg _ ?_) hb)) (h _)
    show _ = _ + 7 - ((6 : Nat) : Int)
    omega
  | popSp _ _ _ | push _ _ _ | call _ _ _ _ | ret _ _ => exact Registers.get_set_ne _ (by decide) _
  | nop | cmp _ _ | prn _ | pra _ | jmp _ | jeqTaken _ _ | jeqPassed _ | jneTaken _ _
  | jnePassed _ | st _ _ _ | hlt => rfl

/-- A pop for which there is no byte at the top leaves everything as it was. -/
theorem left_popInto_of_none {i : Int} (h : p.memory.get? p.sp.toNat = none) :
    left (popInto i p) = p := by
  have htop : top p = .error (.memory (p.memory.missed p.sp.toNat)) p :=
    readByte_of_not_covers (Memory.get?_eq_none_iff.mp h)
  rw [popInto, bind_of_error htop]
  rfl

/-- An operation that does not use the stack is done wholly or not at all. -/
theorem left_status_of_not_usesStack {op : Operation} (hop : ¬ UsesStack op)
    (h : ∀ b, ¬ LoadsPending p op b) :
    (left (execute op p)).registers.get .status = p.registers.get .status := by
  cases hexec : execute op p with
  | ok out q =>
    have hstatus := (row_of_execute hexec).status_of_not_loads h
    cases out <;> exact hstatus
  | error e q =>
    rw [clean_execute hop p q e hexec]
    rfl

/-- A pop keeps the pending lines if they are not its destination, or there is no byte to pop. -/
theorem left_pop_status (h : ∀ b, ¬ LoadsPending p .pop b) :
    (left (execute .pop p)).registers.get .status = p.registers.get .status := by
  cases hread : operand 1 p with
  | error e q =>
    have hpop : execute .pop p = .error e q := bind_of_error hread
    rw [left_of_error hpop, clean_operand 1 p q e hread]
  | ok i q =>
    obtain ⟨h1, hq⟩ := operand_eq_ok_iff.mp hread
    rw [hq] at hread
    have hpop : execute .pop p =
        (popInto i.toNat >>= fun _ => advance 2 >>= fun _ => pure .silent) p := bind_of_ok hread
    rw [hpop, left_bind_status fun _ => (keepsPending_advance 2).bind fun _ => keepsPending_pure _]
    by_cases hi : (i.toNat : Int) = 6
    · -- the byte at the top would have been written
      have hnames : p.Names 1 .status := by
        have hbyte : i = UInt8.ofNat (Register.status : Nat) := natCast_register_eq_iff.mp hi.symm
        rw [Names, ← hbyte]
        exact h1
      have hnone : p.memory.get? p.sp.toNat = none := by
        cases hb : p.memory.get? p.sp.toNat with
        | none => rfl
        | some b => exact absurd (.pop hnames hb) (h b)
      rw [left_popInto_of_none hnone]
    · exact keepsPending_popInto hi p

/-- An interrupt return keeps the pending lines if it does not get to its second pop, or finds no
    byte there. -/
theorem left_iret_status_of_not_loads (h : ∀ b, ¬ LoadsPending p .iret b) :
    (left (execute .iret p)).registers.get .status = p.registers.get .status := by
  rw [left_iret_status]
  have hseven := keepsPending_popInto (i := 7) (by decide) p
  cases hfirst : popInto 7 p with
  | error e q =>
    rw [bind_of_error hfirst]
    rwa [hfirst] at hseven
  | ok u q =>
    rw [bind_of_ok hfirst]
    rw [hfirst] at hseven
    obtain ⟨s, m, hs, hm, hne, rfl⟩ := popInto_eq_ok_iff.mp hfirst
    obtain rfl : s = .sp := Fin.ext (Int.ofNat_inj.mp hs)
    rw [sp_withRegister_sp] at hne hseven ⊢
    have hnone : p.memory.get? (m.toNat + 1) = none := by
      cases hb : p.memory.get? (m.toNat + 1) with
      | none => rfl
      | some b => exact absurd (.iret hm hne hb) (h b)
    rw [left_popInto_of_none]
    · exact hseven
    · rw [sp_withRegister_sp, toNat_add_one hne]
      exact hnone

/-- **An operation that does not get to such a write** keeps the pending lines. -/
theorem left_execute_status_of_not_loads {op : Operation} (h : ∀ b, ¬ LoadsPending p op b) :
    (left (execute op p)).registers.get .status = p.registers.get .status := by
  cases op with
  | ldi | add | mul => exact left_status_of_not_usesStack id h
  | pop => exact left_pop_status h
  | iret => exact left_iret_status_of_not_loads h
  | _ => exact keepsPending_execute id p

/-- What hands a text to its caller does not write registers. -/
theorem not_loads_of_text {op : Operation} {s : String} {width : Nat}
    (h : execute op p = .ok (.text s width) q) (b : UInt8) : ¬ LoadsPending p op b := by
  intro hloads
  cases hloads with
  | ldi h1 h2 =>
    rw [execute_of_silent_row (.ldi h1 h2)] at h
    cases h
  | add h1 h2 =>
    rw [execute_of_silent_row (.add h1 h2)] at h
    cases h
  | mul h1 h2 =>
    rw [execute_of_silent_row (.mul h1 h2)] at h
    cases h
  | pop _ _ | iret _ _ _ =>
    simp only [execute, bind_eq_ok_iff, pure_eq_ok_iff, reduceCtorEq, false_and, and_false,
      exists_false] at h

/-! ## Requests -/

/-- Whether an interrupt has been requested for a line and not been taken. -/
def hasRequest (p : Processor) (line : Register) : Bool := hasLine (p.registers.get .status) line

theorem hasRequest_congr {line : Register}
    (h : q.registers.get .status = p.registers.get .status) :
    q.hasRequest line = p.hasRequest line := by
  rw [hasRequest, h, hasRequest]

/-- A request for a line adds one for that line. -/
theorem hasRequest_withPending (p : Processor) (line k : Register) :
    (p.withPending k).hasRequest line = (p.hasRequest line || decide (line = k)) := by
  rw [hasRequest, withPending, registers_withRegister, Registers.get_set_self, hasLine_or,
    hasLine_lineBit]
  rfl

/-- Serving requests of the host takes none back. -/
theorem hasRequest_serve {line : Register} (h : p.hasRequest line = true)
    (requests : List (Request ε)) : (p.serve requests).1.hasRequest line = true := by
  induction requests generalizing p with
  | nil => exact h
  | cons request rest ih =>
    cases request with
    | stopClock => exact ih h
    | fault f => exact h
    | fail reason => exact h
    | raise n =>
      rw [serve]
      cases hraise : p.raise n with
      | error e => exact h
      | ok q =>
        obtain ⟨k, _, rfl⟩ := raise_eq_ok_iff.mp hraise
        exact ih (by rw [hasRequest_withPending, h, Bool.true_or])

/-- What is pending after serving and was not before has been requested. -/
theorem raise_mem_of_serve {line : Register} {requests : List (Request ε)}
    (h : p.hasRequest line = false) (hafter : (p.serve requests).1.hasRequest line = true) :
    .raise ((line : Nat) : Int) ∈ requests := by
  induction requests generalizing p with
  | nil =>
    rw [serve, h] at hafter
    cases hafter
  | cons request rest ih =>
    cases request with
    | stopClock => exact List.mem_cons_of_mem _ (ih h hafter)
    | fault f =>
      rw [serve, h] at hafter
      cases hafter
    | fail reason =>
      rw [serve, h] at hafter
      cases hafter
    | raise n =>
      rw [serve] at hafter
      cases hraise : p.raise n with
      | error e =>
        rw [hraise, h] at hafter
        cases hafter
      | ok q =>
        rw [hraise] at hafter
        obtain ⟨k, hk, rfl⟩ := raise_eq_ok_iff.mp hraise
        by_cases he : line = k
        · rw [he, register?_eq_some_iff.mp hk]
          exact List.mem_cons_self
        · refine List.mem_cons_of_mem _ (ih ?_ hafter)
          rw [hasRequest_withPending, h, decide_eq_false he]
          rfl

end Processor

/-! ## Ticks -/

namespace Cpu

variable {outlet : Outlet σ ε} {c : Cpu} {host : σ}

/-- What was done before the end of a tick is among its effects. -/
theorem mem_completed {e : Effect} {effects : List Effect} (h : e ∈ effects) :
    e ∈ (c.completed host effects : Turn σ ε).effects := by
  rw [completed]
  split
  · exact List.mem_append_left _ h
  · exact h

/-- **What becomes of the pending lines** in an instruction: they are replaced, or they are kept and
    the host may add to them while it takes a text. -/
theorem status_perform (outlet : Outlet σ ε) (c : Cpu) (i : Instruction) (host : σ) :
    (∃ b, c.processor.LoadsPending i.operation b ∧
      (c.perform outlet i host).cpu.processor.registers.get .status = b) ∨
    ((∀ b, ¬ c.processor.LoadsPending i.operation b) ∧
      ((c.perform outlet i host).cpu.processor.registers.get .status =
          c.processor.registers.get .status ∨
        ∃ text, .output text ∈ (c.perform outlet i host).effects ∧
          (c.perform outlet i host).cpu.processor.registers.get .status =
            (c.processor.serve (outlet.deliver host text).2).1.registers.get .status)) := by
  -- the processor that the operation leaves, if nothing is put out
  have plain {q : Processor} (hq : Processor.left (Processor.execute i.operation c.processor) = q) :
      (∃ b, c.processor.LoadsPending i.operation b ∧ q.registers.get .status = b) ∨
      ((∀ b, ¬ c.processor.LoadsPending i.operation b) ∧
        q.registers.get .status = c.processor.registers.get .status) := by
    rw [← hq]
    by_cases h : ∃ b, c.processor.LoadsPending i.operation b
    · obtain ⟨b, hb⟩ := h
      exact .inl ⟨b, hb, Processor.left_execute_status_of_loads hb⟩
    · have hnone := not_exists.mp h
      exact .inr ⟨hnone, Processor.left_execute_status_of_not_loads hnone⟩
  refine perform_cases ?_ ?_ ?_ ?_ ?_
  · intro f q h
    exact (plain (Processor.left_of_error h)).imp_right (And.imp_right .inl)
  · intro q h
    rw [cpu_completed]
    exact (plain (Processor.left_of_ok h)).imp_right (And.imp_right .inl)
  · intro s width q r effects h hserve
    have hq := Processor.eq_of_execute_text h
    refine .inr ⟨Processor.not_loads_of_text h, .inr ⟨s, mem_completed (by simp), ?_⟩⟩
    rw [cpu_completed, ← hq, hserve]
    rfl
  · intro s width q r effects f h hserve
    have hq := Processor.eq_of_execute_text h
    refine .inr ⟨Processor.not_loads_of_text h, .inr ⟨s, by simp [effects_faulted], ?_⟩⟩
    rw [← hq, hserve]
    rfl
  · intro s width q r effects reason h hserve
    have hq := Processor.eq_of_execute_text h
    refine .inr ⟨Processor.not_loads_of_text h, .inr ⟨s, by simp, ?_⟩⟩
    rw [← hq, hserve]
    rfl

/-- **What becomes of the pending lines** in a tick: an entry clears the bit of its line, an
    operation replaces them, or they are kept and the host may add to them while it takes a text. -/
theorem status_tick (outlet : Outlet σ ε) (c : Cpu) (host : σ) :
    (∃ line, c.Enters line ∧ (c.tick outlet host).cpu.processor.registers.get .status =
      c.processor.registers.get .status &&& ~~~ lineBit line) ∨
    (∃ op b, c.Executes op ∧ c.processor.LoadsPending op b ∧
      (c.tick outlet host).cpu.processor.registers.get .status = b) ∨
    ((∀ line, ¬ c.Enters line) ∧ (∀ op b, c.Executes op → ¬ c.processor.LoadsPending op b) ∧
      ((c.tick outlet host).cpu.processor.registers.get .status =
          c.processor.registers.get .status ∨
        ∃ text ir, .output text ∈ (c.tick outlet host).effects ∧
          (c.tick outlet host).cpu.processor.registers.get .status =
            (Processor.serve (outlet.deliver host text).2
              { c.processor with ir := ir }).1.registers.get .status)) := by
  have idle (h : c.processor.nextLine? = none) (line : Register) : ¬ c.Enters line := by
    rintro ⟨_, hline⟩
    rw [h] at hline
    exact nomatch hline
  have entry {line : Register} {q : Processor}
      (hq : Processor.left (Processor.enterInterrupt line c.processor) = q) :
      q.registers.get .status = c.processor.registers.get .status &&& ~~~ lineBit line := by
    rw [← hq, Processor.left_enterInterrupt_status]
  refine tick_cases ?_ ?_ ?_ ?_ ?_ ?_
  · intro hrun
    refine .inr (.inr ⟨fun line h => ?_, fun op b h => ?_, .inl rfl⟩)
    · rw [h.1] at hrun
      exact nomatch hrun
    · rw [h.1] at hrun
      exact nomatch hrun
  · intro line q hrun hline hq
    exact .inl ⟨line, ⟨hrun, hline⟩, entry (Processor.left_of_ok hq)⟩
  · intro line f q hrun hline hq
    exact .inl ⟨line, ⟨hrun, hline⟩, entry (q := q) (Processor.left_of_error hq)⟩
  · intro hrun hidle hcovers
    refine .inr (.inr ⟨idle hidle, fun op b h => ?_, .inl rfl⟩)
    rw [Executes, instruction?, Memory.get?_eq_none_iff.mpr hcovers] at h
    exact nomatch h.2.2
  · intro opcode hrun hidle hbyte hentry
    refine .inr (.inr ⟨idle hidle, fun op b h => ?_, .inl rfl⟩)
    rw [Executes, instruction?, hbyte, Option.bind_eq_bind, Option.bind_some, hentry] at h
    exact nomatch h.2.2
  · intro opcode i hrun hidle hbyte hentry
    have hi : c.instruction? = some i := instruction?_eq_some_iff.mpr ⟨opcode, hbyte, hentry⟩
    have hexec : c.Executes i.operation := ⟨hrun, hidle, by rw [hi]; rfl⟩
    rcases status_perform outlet (c.fetching opcode i.mnemonic) i host with
      ⟨b, hb, hafter⟩ | ⟨hnone, hafter⟩
    · exact .inr (.inl ⟨i.operation, b, hexec, hb.withIr c.processor.ir, hafter⟩)
    · refine .inr (.inr ⟨idle hidle, fun op b h hb => ?_, ?_⟩)
      · have hop : i.operation = op := by
          have hmap := h.2.2
          rw [hi] at hmap
          exact Option.some.inj hmap
        exact hnone b ((hop ▸ hb).withIr opcode)
      · exact hafter.imp_right fun ⟨text, ht, hs⟩ => ⟨text, opcode, ht, hs⟩

/-- **What takes a request back:** the entry of the interrupt of its line, also if it faults; or an
    operation that replaces the pending lines by ones without it. -/
inductive Releases (c : Cpu) (line : Register) : Prop where
  | enters (h : c.Enters line)
  | loads {op : Operation} {b : UInt8} (h : c.Executes op) (hb : c.processor.LoadsPending op b)
    (hline : hasLine b line = false)

/-- **A tick takes a request back** exactly if it is one of these. -/
theorem hasRequest_tick_iff {line : Register} (h : c.processor.hasRequest line = true) :
    (c.tick outlet host).cpu.processor.hasRequest line = false ↔ c.Releases line := by
  have hbit : hasLine (c.processor.registers.get .status) line = true := h
  rw [Processor.hasRequest]
  rcases status_tick outlet c host with ⟨k, hk, hafter⟩ | ⟨op, b, hexec, hb, hafter⟩ |
    ⟨hentry, hloads, hafter⟩
  · -- an entry of line `k`: nothing else can be due in the same tick
    rw [hafter, hasLine_clear, hbit, Bool.true_and, decide_eq_false_iff_not, Classical.not_not]
    constructor
    · rintro rfl
      exact .enters hk
    · rintro (hline | ⟨hexec, _, _⟩)
      · exact Option.some.inj (hline.2.symm.trans hk.2)
      · exact nomatch hexec.2.1.symm.trans hk.2
  · rw [hafter]
    constructor
    · exact .loads hexec hb
    · rintro (hline | ⟨hexec', hb', hline⟩)
      · exact nomatch hexec.2.1.symm.trans hline.2
      · obtain rfl := Option.some.inj (hexec.2.2.symm.trans hexec'.2.2)
        rwa [Processor.left_execute_status_of_loads hb |>.symm.trans
          (Processor.left_execute_status_of_loads hb')]
  · have hkept : hasLine ((c.tick outlet host).cpu.processor.registers.get .status) line = true := by
      rcases hafter with hsame | ⟨text, ir, _, hserved⟩
      · rwa [hsame]
      · rw [hserved]
        have hfetched : Processor.hasRequest { c.processor with ir := ir } line = true := h
        exact Processor.hasRequest_serve hfetched _
    rw [hkept]
    constructor
    · exact nofun
    · rintro (hline | ⟨hexec, hb, _⟩)
      · exact absurd hline (hentry line)
      · exact absurd hb (hloads _ _ hexec)

end Cpu

/-! ## Histories -/

namespace Rig

variable {outlet : Outlet σ ε} {rig : Rig σ} {line : Register}

/-- **What makes a request:** the host between two ticks or while it takes a text, the timer, or an
    operation that replaces the pending lines by ones with it. -/
inductive Requests (outlet : Outlet σ ε) (rig : Rig σ) (line : Register) : HostAction → Prop where
  | raise : Requests outlet rig line (.raise (line : Nat))
  | timer (h : line = Cpu.timerLine) : Requests outlet rig line .timer
  | loads {op : Operation} {b : UInt8} (h : rig.cpu.Executes op)
    (hb : rig.cpu.processor.LoadsPending op b) (hline : hasLine b line = true) :
    Requests outlet rig line .tick
  | output {text : String} (h : .output text ∈ (rig.cpu.tick outlet rig.host).effects)
    (hraise : .raise (line : Nat) ∈ (outlet.deliver rig.host text).2) :
    Requests outlet rig line .tick

/-- Between ticks the host adds requests and takes none back, unless it sets register 6. -/
theorem hasRequest_act_of_ne_tick {a : HostAction} (htick : a ≠ .tick)
    (hset : ∀ v, a ≠ .setRegister 6 v) :
    (rig.act outlet a).cpu.processor.hasRequest line = rig.cpu.processor.hasRequest line ∨
      (rig.act outlet a).cpu.processor.hasRequest line = true ∧ rig.Requests outlet line a := by
  -- a request for line `k`, by whichever action
  have pending (k : Register) (hk : line = k → rig.Requests outlet line a) :
      (rig.cpu.processor.withPending k).hasRequest line = rig.cpu.processor.hasRequest line ∨
        (rig.cpu.processor.withPending k).hasRequest line = true ∧ rig.Requests outlet line a := by
    rw [Processor.hasRequest_withPending]
    by_cases he : line = k
    · exact .inr ⟨by rw [decide_eq_true he, Bool.or_true], hk he⟩
    · exact .inl (by rw [decide_eq_false he, Bool.or_false])
  cases a with
  | tick => exact absurd rfl htick
  | timer => exact pending Cpu.timerLine .timer
  | setSp v => exact .inl (Processor.hasRequest_congr (Registers.get_set_ne _ (by decide) _))
  | poke a v =>
    rw [act, Cpu.poke]
    cases rig.cpu.processor.memory.write a v <;> exact .inl rfl
  | raise n =>
    rw [act, Cpu.raise]
    cases hraise : rig.cpu.processor.raise n with
    | error e => exact .inl rfl
    | ok q =>
      obtain ⟨k, hk, rfl⟩ := Processor.raise_eq_ok_iff.mp hraise
      refine pending k ?_
      rintro rfl
      rw [← register?_eq_some_iff.mp hk]
      exact .raise
  | setRegister i v =>
    rw [act]
    have hkept := Processor.keepsPending_setRegister (i := i) (fun hi => hset v (by rw [hi]))
      (UInt8.ofInt v) rig.cpu.processor
    cases hstep : Processor.setRegister i (UInt8.ofInt v) rig.cpu.processor with
    | error e q => exact .inl rfl
    | ok u q =>
      rw [hstep] at hkept
      exact .inl (Processor.hasRequest_congr hkept)

/-- **An action takes a request back** exactly if it is a tick that does. -/
theorem hasRequest_act_iff {a : HostAction} (hset : ∀ v, a ≠ .setRegister 6 v)
    (h : rig.cpu.processor.hasRequest line = true) :
    (rig.act outlet a).cpu.processor.hasRequest line = false ↔ a = .tick ∧ rig.cpu.Releases line := by
  by_cases htick : a = .tick
  · subst htick
    rw [and_iff_right rfl]
    exact Cpu.hasRequest_tick_iff h
  · have hkept : (rig.act outlet a).cpu.processor.hasRequest line = true :=
      (hasRequest_act_of_ne_tick htick hset).elim (·.trans h) And.left
    rw [hkept]
    exact ⟨nofun, fun hrelease => absurd hrelease.1 htick⟩

/-- **A request that an action leaves and did not find** was made by it. -/
theorem requests_of_act {a : HostAction} (hset : ∀ v, a ≠ .setRegister 6 v)
    (h : rig.cpu.processor.hasRequest line = false)
    (hafter : (rig.act outlet a).cpu.processor.hasRequest line = true) :
    rig.Requests outlet line a := by
  by_cases htick : a = .tick
  · subst htick
    have hbit : hasLine (rig.cpu.processor.registers.get .status) line = false := h
    have hbit' : hasLine ((rig.cpu.tick outlet rig.host).cpu.processor.registers.get .status) line =
      true := hafter
    rcases Cpu.status_tick outlet rig.cpu rig.host with ⟨k, _, hstatus⟩ |
      ⟨op, b, hexec, hb, hstatus⟩ | ⟨_, _, hstatus | ⟨text, ir, htext, hstatus⟩⟩
    · rw [hstatus, hasLine_clear, hbit] at hbit'
      exact nomatch hbit'
    · rw [hstatus] at hbit'
      exact .loads hexec hb hbit'
    · rw [hstatus, hbit] at hbit'
      exact nomatch hbit'
    · rw [hstatus] at hbit'
      have hfetched : Processor.hasRequest { rig.cpu.processor with ir := ir } line = false := h
      exact .output htext (Processor.raise_mem_of_serve hfetched hbit')
  · rcases hasRequest_act_of_ne_tick htick hset with hsame | ⟨_, hrequest⟩
    · rw [hsame, h] at hafter
      exact nomatch hafter
    · exact hrequest

/-- **Requests last until they are taken.**  In every history of ticks, requests, firings of the
    timer and writes into memory, from any state and for any line: an action takes a pending request
    back exactly if it is a tick that enters the interrupt of its line or replaces the pending lines
    by ones without it.  So a request that is pending at the beginning and not at the end was pending
    up to such a tick, and one that is pending at the end and not at the beginning was not pending
    up to the action that made it. -/
theorem request_lasts_until_taken (outlet : Outlet σ ε) (rig : Rig σ) (line : Register)
    (actions : List HostAction) (hset : ∀ v, .setRegister 6 v ∉ actions) :
    let pending (part : List HostAction) : Prop :=
      (rig.run outlet part).cpu.processor.hasRequest line = true
    (∀ before a after, actions = before ++ a :: after → pending before →
      (¬ pending (before ++ [a]) ↔ a = .tick ∧ (rig.run outlet before).cpu.Releases line)) ∧
    (pending [] → ¬ pending actions → ∃ before after, actions = before ++ .tick :: after ∧
      (∀ part, part <+: before → pending part) ∧ (rig.run outlet before).cpu.Releases line) ∧
    (¬ pending [] → pending actions → ∃ before a after, actions = before ++ a :: after ∧
      (∀ part, part <+: before → ¬ pending part) ∧
      (rig.run outlet before).Requests outlet line a) := by
  intro pending
  have hsets {before after : List HostAction} {a : HostAction}
      (h : actions = before ++ a :: after) (v : Int) : a ≠ .setRegister 6 v := by
    rintro rfl
    exact hset v (by simp [h])
  have hnext (before : List HostAction) (a : HostAction) :
      rig.run outlet (before ++ [a]) = (rig.run outlet before).act outlet a :=
    run_append rig before [a]
  have hcleared (before : List HostAction) (a : HostAction) (after : List HostAction)
      (h : actions = before ++ a :: after) (hbefore : pending before) :
      ¬ pending (before ++ [a]) ↔ a = .tick ∧ (rig.run outlet before).cpu.Releases line := by
    rw [← hasRequest_act_iff (hsets h) hbefore, ← hnext before a]
    exact Bool.not_eq_true _ |>.to_iff
  refine ⟨hcleared, fun hstart hend => ?_, fun hstart hend => ?_⟩
  · obtain ⟨before, a, after, h, hbefore, hthen⟩ := exists_first
      (P := fun rig : Rig σ => ¬ rig.cpu.processor.hasRequest line = true) (Classical.not_not.mpr hstart)
      actions hend
    have hkept (part : List HostAction) (hpart : part <+: before) : pending part :=
      Classical.not_not.mp (hbefore part hpart)
    have hafter : ¬ pending (before ++ [a]) := by
      show ¬ (rig.run outlet (before ++ [a])).cpu.processor.hasRequest line = true
      rwa [hnext before a]
    obtain ⟨rfl, hrelease⟩ := (hcleared before a after h (hkept before List.prefix_rfl)).mp hafter
    exact ⟨before, after, h, hkept, hrelease⟩
  · obtain ⟨before, a, after, h, hbefore, hthen⟩ := exists_first
      (P := fun rig : Rig σ => rig.cpu.processor.hasRequest line = true) hstart actions hend
    exact ⟨before, a, after, h, hbefore,
      requests_of_act (hsets h) (Bool.not_eq_true _ |>.mp (hbefore before List.prefix_rfl)) hthen⟩

/-- Two requests that are masked out when they are found; the first tick unmasks all lines, and the
    second one enters the interrupt of the lower line. -/
theorem request_lasts_until_taken_of_unmasking :
    let line : Register := 1
    let outlet : Outlet Unit String := .silent Unit String
    let p : Processor := {
      registers := ⟨#v[0, 0, 0, 0, 0, 0, 0x0a, 0xf4]⟩, memory := .holding [0x04, 5, 0xff] }
    let rig : Rig Unit := { cpu := { processor := p }, host := () }
    let actions : List HostAction := [.poke 7 1, .tick, .raise 3, .tick]
    ∃ before after, actions = before ++ .tick :: after ∧
      (∀ part, part <+: before → (rig.run outlet part).cpu.processor.hasRequest line = true) ∧
      (rig.run outlet before).cpu.Releases line := by
  intro line outlet p rig actions
  have hset (v : Int) : .setRegister 6 v ∉ actions := by simp [actions]
  exact (request_lasts_until_taken outlet rig line actions hset).2.1 (by decide) (by decide +kernel)

end Rig

end Ls8
