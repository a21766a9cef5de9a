import Ls8.Proofs.InstructionTable

/-
  When a step fails, and what it leaves then.

  Each part of an operation has a lemma of the form "it fails with this fault and leaves this
  processor if and only if …".  What was done before a fault is not undone, so the processor left
  behind need not be the one at the start: a refused pop has written its destination, a push that
  misses the memory has lowered the pointer.

  An operation that does not use the stack reads and checks all it has to before its only write, so
  it is done wholly or not at all.  This is put together from its parts (`Clean`): what only reads
  may come before, and what never fails may come after.

  Main statements: an operation that fails without using the stack leaves the processor as it was
  (`clean_execute`); any that fails has touched nothing but registers and the program counter, and
  the counter only by popping a byte into it (`execute_error_frame`); the entry of an interrupt
  disables interrupts whether it succeeds (`enterInterrupt_frame`) or fails, and leaves the counter
  where it was if it fails (`enterInterrupt_error_frame`).
-/

namespace Ls8.Processor

variable {α β : Type} {p q r : Processor} {e : Fault}

/-! ## Parts that always succeed -/

@[simp] theorem pure_ne_error {a : α} : (pure a : Step α) p ≠ .error e q := nofun

@[simp] theorem modify_ne_error {f : Processor → Processor} :
    (modify f : Step Unit) p ≠ .error e q := nofun

@[simp] theorem jump_ne_error {a : Int} : jump a p ≠ .error e q := nofun

@[simp] theorem advance_ne_error {width : Nat} : advance width p ≠ .error e q := nofun

/-! ## Parts that may fail -/

theorem readByte_eq_error_iff {a : Int} : readByte a p = .error e q ↔
    ¬ p.memory.Covers a ∧ e = .memory (p.memory.missed a) ∧ q = p := by
  rw [readByte]
  cases h : p.memory.read a with
  | ok b =>
    have hcovers := Memory.get?_isSome_iff.mp (Option.isSome_of_eq_some (Memory.read_eq_ok_iff.mp h))
    simp [hcovers]
  | error e =>
    obtain ⟨hcovers, rfl⟩ := Memory.read_eq_error_iff.mp h
    simp [hcovers, eq_comm]

theorem operand_eq_error_iff {k : Int} : operand k p = .error e q ↔
    ¬ p.memory.Covers (p.pc + k) ∧ e = .memory (p.memory.missed (p.pc + k)) ∧ q = p :=
  readByte_eq_error_iff

theorem top_eq_error_iff : top p = .error e q ↔
    ¬ p.memory.Covers p.sp.toNat ∧ e = .memory (p.memory.missed p.sp.toNat) ∧ q = p :=
  readByte_eq_error_iff

theorem readRegister_eq_error_iff {i : Int} : readRegister i p = .error e q ↔
    register? i = none ∧ e = .operand (.registerIndex i) ∧ q = p := by
  rw [readRegister]
  cases register? i <;> simp [eq_comm]

theorem setRegister_eq_error_iff {i : Int} {b : UInt8} : setRegister i b p = .error e q ↔
    register? i = none ∧ e = .operand (.registerIndex i) ∧ q = p := by
  rw [setRegister]
  cases register? i <;> simp [eq_comm]

/-- An operand register is refused if its byte is missing or names no register. -/
theorem registerOperand_eq_error_iff {k : Int} : registerOperand k p = .error e q ↔
    (¬ p.memory.Covers (p.pc + k) ∧ e = .memory (p.memory.missed (p.pc + k)) ∧ q = p) ∨
    ∃ b, p.Operand k b ∧ register? b.toNat = none ∧ e = .operand (.registerIndex b.toNat) ∧
      q = p := by
  simp only [registerOperand, bind_eq_error_iff, operand_eq_error_iff, operand_eq_ok_iff,
    readRegister_eq_error_iff]
  constructor
  · rintro (h | ⟨b, _, ⟨hb, rfl⟩, h⟩)
    · exact .inl h
    · exact .inr ⟨b, hb, h⟩
  · rintro (h | ⟨b, hb, h⟩)
    · exact .inl h
    · exact .inr ⟨b, p, ⟨hb, rfl⟩, h⟩

theorem storeByte_eq_error_iff {a : Int} {b : UInt8} : storeByte a b p = .error e q ↔
    ¬ p.memory.Covers a ∧ e = .memory (p.memory.missed a) ∧ q = p := by
  rw [storeByte, Memory.store]
  by_cases h : p.memory.Covers a
  · simp [h]
  · simp [h, eq_comm]

theorem lowerSp_eq_error_iff :
    lowerSp p = .error e q ↔ p.sp = 0 ∧ e = .stack .overflow ∧ q = p := by
  rw [lowerSp]
  split <;> simp_all [eq_comm]

theorem raiseSp_eq_error_iff :
    raiseSp p = .error e q ↔ p.sp = 0xff ∧ e = .stack .underflow ∧ q = p := by
  rw [raiseSp]
  split <;> simp_all [eq_comm]

/-- **A push fails** without room, or having lowered the pointer past the memory. -/
theorem pushByte_eq_error_iff {b : UInt8} : pushByte b p = .error e q ↔
    (p.sp = 0 ∧ e = .stack .overflow ∧ q = p) ∨
    (p.sp ≠ 0 ∧ ¬ p.memory.Covers (p.sp - 1).toNat ∧
      e = .memory (p.memory.missed (p.sp - 1).toNat) ∧ q = p.withRegister .sp (p.sp - 1)) := by
  simp only [pushByte, bind_eq_error_iff, lowerSp_eq_error_iff, lowerSp_eq_ok_iff, storeTop,
    storeByte_eq_error_iff]
  constructor
  · rintro (h | ⟨_, _, ⟨h0, rfl⟩, h⟩)
    · exact .inl h
    · rw [sp_withRegister_sp] at h
      exact .inr ⟨h0, h⟩
  · rintro (h | ⟨h0, h⟩)
    · exact .inl h
    · refine .inr ⟨(), _, ⟨h0, rfl⟩, ?_⟩
      rw [sp_withRegister_sp]
      exact h

theorem push_eq_error_iff {value : Int} : push value p = .error e q ↔
    (toByte? value = none ∧ e = .operand (.stackValue value) ∧ q = p) ∨
    ∃ b : UInt8, (b.toNat : Int) = value ∧ pushByte b p = .error e q := by
  simp only [← toByte?_eq_some_iff]
  rw [push]
  cases toByte? value with
  | some b => simp
  | none =>
    have hthrow : (throw (.operand (.stackValue value)) : Step Unit) p =
        .error (.operand (.stackValue value)) p := rfl
    simp [hthrow, eq_comm]

/-- **A pop fails** without memory at the top, without a destination, or, once the destination is
    written, at the last address. -/
theorem popInto_eq_error_iff {i : Int} : popInto i p = .error e q ↔
    (¬ p.memory.Covers p.sp.toNat ∧ e = .memory (p.memory.missed p.sp.toNat) ∧ q = p) ∨
    (∃ b, p.memory.get? p.sp.toNat = some b ∧ register? i = none ∧
      e = .operand (.registerIndex i) ∧ q = p) ∨
    ∃ (s : Register) (b : UInt8), ((s : Nat) : Int) = i ∧ p.memory.get? p.sp.toNat = some b ∧
      (p.withRegister s b).sp = 0xff ∧ e = .stack .underflow ∧ q = p.withRegister s b := by
  simp only [popInto, bind_eq_error_iff, top_eq_error_iff, top_eq_ok_iff, setRegister_eq_error_iff,
    setRegister_eq_ok_iff, raiseSp_eq_error_iff]
  constructor
  · rintro (h | ⟨b, _, ⟨hb, rfl⟩, h | ⟨_, _, ⟨s, hs, rfl⟩, h⟩⟩)
    · exact .inl h
    · exact .inr (.inl ⟨b, hb, h⟩)
    · exact .inr (.inr ⟨s, b, hs, hb, h⟩)
  · rintro (h | ⟨b, hb, h⟩ | ⟨s, b, hs, hb, h⟩)
    · exact .inl h
    · exact .inr ⟨b, p, ⟨hb, rfl⟩, .inl h⟩
    · exact .inr ⟨b, p, ⟨hb, rfl⟩, .inr ⟨(), _, ⟨s, hs, rfl⟩, h⟩⟩

theorem popPc_eq_error_iff : popPc p = .error e q ↔
    (¬ p.memory.Covers p.sp.toNat ∧ e = .memory (p.memory.missed p.sp.toNat) ∧ q = p) ∨
    ∃ b, p.memory.get? p.sp.toNat = some b ∧ p.sp = 0xff ∧ e = .stack .underflow ∧
      q = { p with pc := b.toNat } := by
  simp only [popPc, bind_eq_error_iff, top_eq_error_iff, top_eq_ok_iff, jump_ne_error,
    jump_eq_ok_iff, raiseSp_eq_error_iff, false_or]
  constructor
  · rintro (h | ⟨b, _, ⟨hb, rfl⟩, _, _, rfl, h⟩)
    · exact .inl h
    · exact .inr ⟨b, hb, h⟩
  · rintro (h | ⟨b, hb, h⟩)
    · exact .inl h
    · exact .inr ⟨b, p, ⟨hb, rfl⟩, (), _, rfl, h⟩

/-! ## What is left in either case -/

/-- The processor that a step leaves, whether it succeeded or failed. -/
def left : EStateM.Result Fault Processor α → Processor
  | .ok _ q => q
  | .error _ q => q

theorem left_of_ok {x : Step α} {a : α} (h : x p = .ok a q) : left (x p) = q := by
  rw [h, left]

theorem left_of_error {x : Step α} (h : x p = .error e q) : left (x p) = q := by
  rw [h, left]

/-- **What every step of a list does, the whole list does,** however far it gets. -/
theorem left_forM {R : Processor → Processor → Prop} {step : Int → Step Unit}
    (hrefl : ∀ p, R p p) (htrans : ∀ {p q r}, R p q → R q r → R p r) (is : List Int)
    (hstep : ∀ i ∈ is, ∀ p, R p (left (step i p))) (p : Processor) :
    R p (left (is.forM step p)) := by
  induction is generalizing p with
  | nil => exact hrefl p
  | cons i is ih =>
    have hfirst := hstep i List.mem_cons_self p
    have ih := ih fun j hj => hstep j (List.mem_cons_of_mem i hj)
    show R p (left ((step i >>= fun _ => is.forM step) p))
    cases h : step i p with
    | error e q =>
      rw [bind_of_error h]
      rwa [h] at hfirst
    | ok u q =>
      rw [bind_of_ok h]
      rw [h] at hfirst
      exact htrans hfirst (ih q)

/-- From one processor to the other only registers have changed. -/
def RegistersOnly (p q : Processor) : Prop := q = { p with registers := q.registers }

/-- From one processor to the other only the stack pointer and memory have changed. -/
def PushedOnly (p q : Processor) : Prop :=
  q = { p with registers := p.registers.set .sp q.sp, memory := q.memory }

theorem RegistersOnly.trans (h : RegistersOnly p q) (h' : RegistersOnly q r) :
    RegistersOnly p r := by
  rw [RegistersOnly, h', h]

theorem PushedOnly.refl (p : Processor) : PushedOnly p p := by
  rw [PushedOnly, Registers.set_eq_self (show p.registers.get .sp = p.sp from rfl)]

theorem PushedOnly.trans (h : PushedOnly p q) (h' : PushedOnly q r) : PushedOnly p r := by
  have hregisters : q.registers.set .sp r.sp = p.registers.set .sp r.sp := by
    rw [h, Registers.set_set]
  have hlater : r = { q with registers := q.registers.set .sp r.sp, memory := r.memory } := h'
  rw [PushedOnly, ← hregisters]
  refine hlater.trans ?_
  rw [h]

theorem PushedOnly.bind {x : Step α} {f : α → Step β} (hx : PushedOnly p (left (x p)))
    (hf : ∀ a q, PushedOnly q (left (f a q))) : PushedOnly p (left ((x >>= f) p)) := by
  cases h : x p with
  | error e q =>
    rw [h] at hx
    rwa [bind_of_error h]
  | ok a q =>
    rw [h] at hx
    rw [bind_of_ok h]
    exact hx.trans (hf a q)

/-- A pop touches registers only. -/
theorem registersOnly_popInto (i : Int) (p : Processor) :
    RegistersOnly p (left (popInto i p)) := by
  cases h : popInto i p with
  | ok u q =>
    obtain ⟨_, _, _, _, _, rfl⟩ := popInto_eq_ok_iff.mp h
    rfl
  | error e q =>
    rcases popInto_eq_error_iff.mp h with ⟨_, _, rfl⟩ | ⟨_, _, _, _, rfl⟩ |
      ⟨_, _, _, _, _, _, rfl⟩ <;> rfl

/-- A push touches the pointer and memory only. -/
theorem pushedOnly_pushByte (b : UInt8) (p : Processor) : PushedOnly p (left (pushByte b p)) := by
  have hpointer (m : Memory) : PushedOnly p { p.withRegister .sp (p.sp - 1) with memory := m } := by
    have hsp : Processor.sp { p.withRegister .sp (p.sp - 1) with memory := m } = p.sp - 1 :=
      sp_withRegister_sp _ _
    rw [PushedOnly, hsp]
    rfl
  cases h : pushByte b p with
  | ok u q =>
    obtain ⟨_, m, _, rfl⟩ := pushByte_eq_ok_iff.mp h
    exact hpointer m
  | error e q =>
    rcases pushByte_eq_error_iff.mp h with ⟨_, _, rfl⟩ | ⟨_, _, _, rfl⟩
    · exact .refl _
    · exact hpointer p.memory

theorem pushedOnly_push (value : Int) (p : Processor) : PushedOnly p (left (push value p)) := by
  rw [push]
  cases toByte? value with
  | some b => exact pushedOnly_pushByte b p
  | none => exact .refl p

/-- Saving a register touches the pointer and memory only. -/
theorem pushedOnly_pushRegister (s : Register) (p : Processor) :
    PushedOnly p (left (pushRegister ((s : Nat) : Int) p)) := by
  rw [pushRegister_eq]
  exact pushedOnly_pushByte _ p

/-- A failed push has moved the pointer at most. -/
theorem registersOnly_of_push_error {value : Int} (h : push value p = .error e q) :
    RegistersOnly p q := by
  rcases push_eq_error_iff.mp h with ⟨_, _, rfl⟩ | ⟨b, _, hb⟩
  · rfl
  · rcases pushByte_eq_error_iff.mp hb with ⟨_, _, rfl⟩ | ⟨_, _, _, rfl⟩ <;> rfl

/-! ## Steps that a failure does not leave half done -/

/-- A step that does not change the processor when it succeeds. -/
def Reading (x : Step α) : Prop := ∀ p q a, x p = .ok a q → q = p

/-- A step that leaves the processor as it was when it fails. -/
def Clean (x : Step α) : Prop := ∀ p q e, x p = .error e q → q = p

/-- A step that never fails. -/
def Sure (x : Step α) : Prop := ∀ p q e, x p ≠ .error e q

theorem reading_operand (k : Int) : Reading (operand k) := fun _ _ _ h =>
  (operand_eq_ok_iff.mp h).2

theorem reading_readRegister (i : Int) : Reading (readRegister i) := by
  intro p q b h
  obtain ⟨_, _, _, rfl⟩ := readRegister_eq_ok_iff.mp h
  rfl

theorem reading_registerOperand (k : Int) : Reading (registerOperand k) := by
  intro p q b h
  obtain ⟨_, _, _, rfl⟩ := registerOperand_eq_ok_iff.mp h
  rfl

theorem sure_pure (a : α) : Sure (pure a : Step α) := fun _ _ _ => pure_ne_error

theorem sure_jump (a : Int) : Sure (jump a) := fun _ _ _ => jump_ne_error

theorem sure_advance (width : Nat) : Sure (advance width) := fun _ _ _ => advance_ne_error

theorem sure_modify (f : Processor → Processor) : Sure (modify f : Step Unit) :=
  fun _ _ _ => modify_ne_error

theorem Sure.bind {x : Step α} {f : α → Step β} (hx : Sure x) (hf : ∀ a, Sure (f a)) :
    Sure (x >>= f) := by
  intro p q e h
  rcases bind_eq_error_iff.mp h with hfail | ⟨a, r, _, hfail⟩
  · exact hx p q e hfail
  · exact hf a r q e hfail

/-- What fails before a step that never fails. -/
theorem error_of_sure {x : Step α} {f : α → Step β} (hf : ∀ a, Sure (f a))
    (h : (x >>= f) p = .error e q) : x p = .error e q := by
  rcases bind_eq_error_iff.mp h with hfail | ⟨a, r, _, hfail⟩
  · exact hfail
  · exact absurd hfail (hf a r q e)

theorem Sure.clean {x : Step α} (hx : Sure x) : Clean x := fun p q e h => absurd h (hx p q e)

theorem clean_operand (k : Int) : Clean (operand k) := fun _ _ _ h =>
  (operand_eq_error_iff.mp h).2.2

theorem clean_readRegister (i : Int) : Clean (readRegister i) := fun _ _ _ h =>
  (readRegister_eq_error_iff.mp h).2.2

theorem clean_setRegister (i : Int) (b : UInt8) : Clean (setRegister i b) := fun _ _ _ h =>
  (setRegister_eq_error_iff.mp h).2.2

theorem clean_storeByte (a : Int) (b : UInt8) : Clean (storeByte a b) := fun _ _ _ h =>
  (storeByte_eq_error_iff.mp h).2.2

theorem clean_registerOperand (k : Int) : Clean (registerOperand k) := by
  intro p q e h
  rcases registerOperand_eq_error_iff.mp h with ⟨_, _, rfl⟩ | ⟨_, _, _, _, rfl⟩ <;> rfl

/-- **What only reads may come before a clean step.** -/
theorem Clean.read {x : Step α} {f : α → Step β} (hx : Clean x) (hread : Reading x)
    (hf : ∀ a, Clean (f a)) : Clean (x >>= f) := by
  intro p q e h
  rcases bind_eq_error_iff.mp h with hfail | ⟨a, r, hok, hfail⟩
  · exact hx p q e hfail
  · rw [hread p r a hok] at hfail
    exact hf a p q e hfail

/-- **What never fails may come after a clean step.** -/
theorem Clean.andThen {x : Step α} {f : α → Step β} (hx : Clean x) (hf : ∀ a, Sure (f a)) :
    Clean (x >>= f) := by
  intro p q e h
  exact hx p q e (error_of_sure hf h)

theorem clean_arithmetic (op : AluOperation) : Clean (arithmetic op) :=
  (clean_operand 1).read (reading_operand 1) fun target =>
    (clean_registerOperand 2).read (reading_registerOperand 2) fun b =>
      (clean_readRegister target.toNat).read (reading_readRegister target.toNat) fun a =>
        (clean_setRegister target.toNat (op.apply a b)).andThen fun _ => sure_advance 3

theorem clean_compare : Clean compare :=
  (clean_registerOperand 1).read (reading_registerOperand 1) fun _ =>
    (clean_registerOperand 2).andThen fun _ =>
      (sure_modify _).bind fun _ => sure_advance 3

theorem clean_jumpIf (wanted : Bool) : Clean (jumpIf wanted) := by
  intro p q e h
  -- the operand is read only if the jump is taken
  by_cases heq : p.equal = some wanted
  · rw [jumpIf_of_eq heq] at h
    exact (clean_registerOperand 1).andThen (fun _ => sure_jump _) p q e h
  · rw [jumpIf_of_ne heq] at h
    exact absurd h (sure_advance 2 p q e)

/-- The operations that move bytes to or from the stack. -/
def UsesStack : Operation → Prop
  | .push | .pop | .call | .ret | .iret => True
  | _ => False

/-- **An operation that fails without using the stack** leaves the processor as it was: it checks
    all it has to before its only write. -/
theorem clean_execute {op : Operation} (hop : ¬ UsesStack op) : Clean (execute op) := by
  cases op with
  | push | pop | call | ret | iret => exact absurd trivial hop
  | nop => exact ((sure_advance 1).bind fun _ => sure_pure _).clean
  | hlt => exact ((sure_modify _).bind fun _ => sure_pure _).clean
  | ldi =>
    refine (clean_operand 1).read (reading_operand 1) fun target => ?_
    refine (clean_operand 2).read (reading_operand 2) fun value => ?_
    exact (clean_setRegister _ _).andThen fun _ => (sure_advance 3).bind fun _ => sure_pure _
  | add | mul => exact (clean_arithmetic _).andThen fun _ => sure_pure _
  | cmp => exact clean_compare.andThen fun _ => sure_pure _
  | prn | pra => exact (clean_registerOperand 1).andThen fun _ => sure_pure _
  | jmp =>
    exact (clean_registerOperand 1).andThen fun _ => (sure_jump _).bind fun _ => sure_pure _
  | jeq | jne => exact (clean_jumpIf _).andThen fun _ => sure_pure _
  | st =>
    refine (clean_registerOperand 1).read (reading_registerOperand 1) fun a => ?_
    refine (clean_registerOperand 2).read (reading_registerOperand 2) fun value => ?_
    exact (clean_storeByte _ _).andThen fun _ => (sure_advance 3).bind fun _ => sure_pure _

/-! ## What failed operations leave -/

/-- A failed return from an interrupt. -/
theorem returnFromInterrupt_error_frame (h : returnFromInterrupt p = .error e q) :
    q = { p with registers := q.registers, pc := q.pc } ∧
      (q.pc = p.pc ∨ ∃ b : UInt8, q.pc = b.toNat) := by
  have hpops := left_forM (R := RegistersOnly) (fun _ => rfl) .trans [7, 6, 5, 4, 3, 2, 1, 0]
    (fun i _ => registersOnly_popInto i) p
  simp only [returnFromInterrupt, bind_eq_error_iff, modify_ne_error, and_false, exists_false,
    or_false] at h
  rcases h with hfail | ⟨_, r, hok, hback⟩
  · rw [left_of_error hfail] at hpops
    have hpc : q.pc = p.pc := by rw [hpops]
    refine ⟨?_, .inl hpc⟩
    rw [hpc]
    exact hpops
  · rw [left_of_ok hok] at hpops
    rcases popPc_eq_error_iff.mp hback with ⟨_, _, rfl⟩ | ⟨b, _, _, _, rfl⟩
    · have hpc : q.pc = p.pc := by rw [hpops]
      refine ⟨?_, .inl hpc⟩
      rw [hpc]
      exact hpops
    · refine ⟨?_, .inr ⟨b, rfl⟩⟩
      rw [hpops]

/-- **An operation that fails** has touched registers and the program counter only, and has put a
    byte into the counter if anything. -/
theorem execute_error_frame {op : Operation} (h : execute op p = .error e q) :
    q = { p with registers := q.registers, pc := q.pc } ∧
      (q.pc = p.pc ∨ ∃ b : UInt8, q.pc = b.toNat) := by
  -- all but the returns leave the counter
  have stays (hq : RegistersOnly p q) : q = { p with registers := q.registers, pc := q.pc } ∧
      (q.pc = p.pc ∨ ∃ b : UInt8, q.pc = b.toNat) := by
    have hpc : q.pc = p.pc := by rw [hq]
    refine ⟨?_, .inl hpc⟩
    rw [hpc]
    exact hq
  have kept (hq : q = p) := stays (by rw [RegistersOnly, hq])
  cases op with
  | push =>
    rcases bind_eq_error_iff.mp h with hread | ⟨a, r, hread, hrest⟩
    · exact kept (clean_registerOperand 1 p q e hread)
    · rw [reading_registerOperand 1 p r a hread] at hrest
      exact stays (registersOnly_of_push_error
        (error_of_sure (fun _ => (sure_advance 2).bind fun _ => sure_pure _) hrest))
  | pop =>
    rcases bind_eq_error_iff.mp h with hread | ⟨i, r, hread, hrest⟩
    · exact kept (clean_operand 1 p q e hread)
    · rw [reading_operand 1 p r i hread] at hrest
      have hframe := registersOnly_popInto i.toNat p
      rw [left_of_error
        (error_of_sure (fun _ => (sure_advance 2).bind fun _ => sure_pure _) hrest)] at hframe
      exact stays hframe
  | call =>
    -- the address to return to is pushed before the jump
    rcases bind_eq_error_iff.mp h with hread | ⟨a, r, hread, hrest⟩
    · exact kept (clean_registerOperand 1 p q e hread)
    · rw [reading_registerOperand 1 p r a hread, bind_of_ok (get_eq_ok_iff.mpr ⟨rfl, rfl⟩)] at hrest
      exact stays (registersOnly_of_push_error
        (error_of_sure (fun _ => (sure_jump _).bind fun _ => sure_pure _) hrest))
  | ret =>
    rcases popPc_eq_error_iff.mp (error_of_sure (fun _ => sure_pure _) h) with
      ⟨_, _, rfl⟩ | ⟨b, _, _, _, rfl⟩
    · exact kept rfl
    · exact ⟨rfl, .inr ⟨b, rfl⟩⟩
  | iret => exact returnFromInterrupt_error_frame (error_of_sure (fun _ => sure_pure _) h)
  | nop | ldi | add | mul | cmp | prn | pra | jmp | jeq | jne | st | hlt =>
    exact kept (clean_execute id p q e h)

/-- What an entry does between acknowledging its line and jumping to the handler. -/
def saveFrame (line : Register) (back : Int) : Step UInt8 := do
  push back
  [0, 1, 2, 3, 4, 5, 6, 7].forM pushRegister
  readByte (vectorTable + (line : Nat))

theorem enterInterrupt_eq_saveFrame (line : Register) (p : Processor) :
    enterInterrupt line p =
      (saveFrame line p.pc >>= fun b => jump b.toNat) (p.acknowledged line) := by
  rw [enterInterrupt_eq, saveFrame]
  simp only [bind_assoc]

theorem pushedOnly_saveFrame (line : Register) (back : Int) (p : Processor) :
    PushedOnly p (left (saveFrame line back p)) := by
  refine (pushedOnly_push back p).bind fun _ q => PushedOnly.bind ?_ fun _ r => ?_
  · refine left_forM .refl .trans [0, 1, 2, 3, 4, 5, 6, 7] (fun i hi p => ?_) q
    obtain ⟨s, rfl⟩ : ∃ s : Register, ((s : Nat) : Int) = i := by
      revert i
      decide
    exact pushedOnly_pushRegister s p
  · rcases readByte_state (a := vectorTable + (line : Nat)) (p := r) with ⟨b, h⟩ | ⟨e, h⟩ <;>
    · rw [h]
      exact .refl r

/-- **The entry of an interrupt** touches registers, memory and the program counter, and disables
    interrupts. -/
theorem enterInterrupt_frame {line : Register} (h : enterInterrupt line p = .ok () q) :
    q = { p with
      registers := q.registers, memory := q.memory, pc := q.pc, interruptsEnabled := false } := by
  rw [enterInterrupt_eq_saveFrame] at h
  obtain ⟨b, r, hsave, hjump⟩ := bind_eq_ok_iff.mp h
  have hpushed := pushedOnly_saveFrame line p.pc (p.acknowledged line)
  rw [left_of_ok hsave] at hpushed
  rw [jump_eq_ok_iff.mp hjump, hpushed]
  rfl

/-- **A failed entry of an interrupt** has acknowledged its line, and has pushed. -/
theorem pushedOnly_of_enterInterrupt_error {line : Register}
    (h : enterInterrupt line p = .error e q) : PushedOnly (p.acknowledged line) q := by
  rw [enterInterrupt_eq_saveFrame] at h
  have hsave := error_of_sure (fun b : UInt8 => sure_jump b.toNat) h
  have hpushed := pushedOnly_saveFrame line p.pc (p.acknowledged line)
  rwa [left_of_error hsave] at hpushed

/-- A failed entry leaves the program counter. -/
theorem enterInterrupt_error_frame {line : Register} (h : enterInterrupt line p = .error e q) :
    q = { p with registers := q.registers, memory := q.memory, interruptsEnabled := false } := by
  rw [pushedOnly_of_enterInterrupt_error h]
  rfl

end Ls8.Processor
