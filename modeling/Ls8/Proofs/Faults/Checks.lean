import Ls8.Proofs.StepFailure

/-
  Which fault an operation ends in.

  1. **Checks.**  An operation makes its checks one after the other, and the first that does not pass
     decides the fault.  They are listed as data (`Processor.checks`), in terms of the processor that
     the operation starts from: what is missing, what names no register, where the stack ends.

  2. **The judgment** `FailsBy cs Q x p` says of a step both when it fails and when it succeeds: with
     the fault of the first check of `cs` that applies, or, if none does, with a result as `Q` says.
     Lists of checks are appended where steps are composed (`FailsBy.bind`), so an operation is put
     together from its parts in the order in which it is written.

  3. **The crux** is a row of pops or pushes.  Each of them looks at the pointer that the one before
     has left, but they all end in the same fault, so together they are one check of the pointer at
     the start: the row has to fit (`failsBy_pops`, `failsBy_pushes`).

  Main statements, for a full block: an operation at an address of the block fails by its checks
  (`failsBy_execute`), and so does the entry of an interrupt (`failsBy_enterInterrupt`).
-/

namespace Ls8

/-! ## Checks in order -/

/-- A check: when it stops the processor, and with which fault. -/
structure Check where
  applies : Bool
  fault : Fault

/-- **The fault of the first check that applies.** -/
def firstFault (cs : List Check) : Option Fault := (cs.find? Check.applies).map Check.fault

theorem firstFault_append (cs d : List Check) :
    firstFault (cs ++ d) = (firstFault cs).or (firstFault d) := by
  rw [firstFault, List.find?_append, Option.map_or]
  rfl

theorem firstFault_of_applies {c : Check} {cs : List Check} (h : c.applies = true) :
    firstFault (c :: cs) = some c.fault := by
  rw [firstFault, List.find?_cons_of_pos h]
  rfl

theorem firstFault_of_passes {c : Check} {cs : List Check} (h : c.applies = false) :
    firstFault (c :: cs) = firstFault cs := by
  rw [firstFault, List.find?_cons_of_neg (by simp [h]), firstFault]

/-- Two checks in a row that end in the same fault are one. -/
theorem firstFault_merge {a b c : Bool} {f : Fault} (h : c = (a || b)) (cs : List Check) :
    firstFault (⟨a, f⟩ :: ⟨b, f⟩ :: cs) = firstFault (⟨c, f⟩ :: cs) := by
  subst h
  cases a with
  | true => rw [firstFault_of_applies rfl, firstFault_of_applies rfl]
  | false => rw [firstFault_of_passes rfl, Bool.false_or]

namespace Processor

/-- **The byte at an address,** zero where there is none. -/
def byteAt (p : Processor) (a : Int) : UInt8 := (p.memory.get? a).getD 0

/-- There is no byte `k` places behind the opcode. -/
def missing (p : Processor) (k : Int) : Check :=
  ⟨255 < p.pc + k, .memory (.outside (p.pc + k) 0 255)⟩

/-- A byte names no register. -/
def noRegister (b : UInt8) : Check := ⟨8 ≤ b.toNat, .operand (.registerIndex b.toNat)⟩

/-- An integer does not fit a byte of the stack. -/
def noStackValue (value : Int) : Check :=
  ⟨value < 0 ∨ 255 < value, .operand (.stackValue value)⟩

/-- There is no byte below the pointer. -/
def noRoom (p : Processor) : Check := ⟨p.sp = 0, .stack .overflow⟩

/-- The pointer that a pop raises: a pop into the pointer has replaced it by the byte on top. -/
def popPointer (p : Processor) (target : UInt8) : UInt8 :=
  if target = 7 then p.byteAt p.sp.toNat else p.sp

/-- **The checks of each operation,** in the order in which they are made. -/
def checks (p : Processor) : Operation → List Check
  | .nop | .hlt => []
  | .ldi => [p.missing 1, p.missing 2, noRegister (p.byteAt (p.pc + 1))]
  | .add | .mul => [p.missing 1, p.missing 2, noRegister (p.byteAt (p.pc + 2)),
      noRegister (p.byteAt (p.pc + 1))]
  | .cmp | .st => [p.missing 1, noRegister (p.byteAt (p.pc + 1)), p.missing 2,
      noRegister (p.byteAt (p.pc + 2))]
  | .prn | .pra | .jmp => [p.missing 1, noRegister (p.byteAt (p.pc + 1))]
  | .jeq => if p.equal = some true then [p.missing 1, noRegister (p.byteAt (p.pc + 1))] else []
  | .jne => if p.equal = some false then [p.missing 1, noRegister (p.byteAt (p.pc + 1))] else []
  | .push => [p.missing 1, noRegister (p.byteAt (p.pc + 1)), p.noRoom]
  | .pop => [p.missing 1, noRegister (p.byteAt (p.pc + 1)),
      ⟨p.popPointer (p.byteAt (p.pc + 1)) = 0xff, .stack .underflow⟩]
  | .call => [p.missing 1, noRegister (p.byteAt (p.pc + 1)), noStackValue (p.pc + 2), p.noRoom]
  | .ret => [⟨p.sp = 0xff, .stack .underflow⟩]
  | .iret => [⟨0xf7 ≤ p.byteAt p.sp.toNat, .stack .underflow⟩]

/-- **The checks of the entry of an interrupt:** the program counter is saved first, and there has
    to be room for a frame of nine bytes. -/
def entryChecks (p : Processor) : List Check :=
  [noStackValue p.pc, ⟨p.sp.toNat < 9, .stack .overflow⟩]

/-! ## The judgment -/

variable {α β : Type} {p q : Processor} {f : Fault} {cs d : List Check}
  {Q : α → Processor → Prop} {R : β → Processor → Prop} {x : Step α}

/-- **A step fails by checks:** it ends in the fault of the first that applies, and if none does it
    succeeds, with a result and a processor as `Q` says. -/
def FailsBy (cs : List Check) (Q : α → Processor → Prop) (x : Step α) (p : Processor) : Prop :=
  match x p with
  | .ok a q => firstFault cs = none ∧ Q a q
  | .error f _ => firstFault cs = some f

theorem FailsBy.of_ok {a : α} (h : FailsBy cs Q x p) (hx : x p = .ok a q) :
    firstFault cs = none ∧ Q a q := by
  rw [FailsBy, hx] at h
  exact h

theorem FailsBy.of_error (h : FailsBy cs Q x p) (hx : x p = .error f q) :
    firstFault cs = some f := by
  rw [FailsBy, hx] at h
  exact h

/-- What succeeds makes no checks. -/
theorem failsBy_nil {a : α} (hx : x p = .ok a q) (hq : Q a q) : FailsBy [] Q x p := by
  rw [FailsBy, hx]
  exact ⟨rfl, hq⟩

/-- A step with one check. -/
theorem failsBy_singleton {P : Prop} [Decidable P]
    (hfail : P → ∃ q, x p = .error f q) (hok : ¬ P → ∃ a q, x p = .ok a q ∧ Q a q) :
    FailsBy [⟨P, f⟩] Q x p := by
  by_cases hP : P
  · obtain ⟨q, hx⟩ := hfail hP
    rw [FailsBy, hx]
    exact firstFault_of_applies (decide_eq_true hP)
  · obtain ⟨a, q, hx, hq⟩ := hok hP
    rw [FailsBy, hx]
    exact ⟨firstFault_of_passes (decide_eq_false hP), hq⟩

/-- **Composed steps make their checks one after the other.** -/
theorem FailsBy.bind {g : α → Step β} (hx : FailsBy cs Q x p)
    (hg : ∀ a q, Q a q → FailsBy d R (g a) q) : FailsBy (cs ++ d) R (x >>= g) p := by
  rw [FailsBy, firstFault_append]
  cases h : x p with
  | error f q =>
    rw [bind_of_error h, hx.of_error h]
    rfl
  | ok a q =>
    obtain ⟨hpassed, hq⟩ := hx.of_ok h
    have hrest := hg a q hq
    rw [FailsBy] at hrest
    rw [bind_of_ok h, hpassed]
    exact hrest

/-- What never fails adds no checks. -/
theorem FailsBy.andThen {g : α → Step β} (hx : FailsBy cs Q x p) (hg : ∀ a, Sure (g a)) :
    FailsBy cs (fun _ _ => True) (x >>= g) p := by
  rw [← List.append_nil cs]
  refine hx.bind fun a q _ => ?_
  cases h : g a q with
  | error f r => exact absurd h (hg a q r f)
  | ok b r => exact failsBy_nil h trivial

theorem FailsBy.imp {Q' : α → Processor → Prop} (h : FailsBy cs Q x p)
    (hQ : ∀ a q, Q a q → Q' a q) : FailsBy cs Q' x p := by
  rw [← List.append_nil cs, ← bind_pure x]
  exact h.bind fun a q hq => failsBy_nil rfl (hQ a q hq)

/-- Other checks that decide the same. -/
theorem FailsBy.congr (h : FailsBy cs Q x p) (heq : firstFault cs = firstFault d) :
    FailsBy d Q x p := by
  unfold FailsBy at h ⊢
  rwa [heq] at h

/-- A check put in other words. -/
theorem FailsBy.iff {P P' : Prop} [Decidable P] [Decidable P']
    (h : FailsBy (⟨P, f⟩ :: cs) Q x p) (hiff : P' ↔ P) : FailsBy (⟨P', f⟩ :: cs) Q x p := by
  rwa [decide_eq_decide.mpr hiff]

/-- Two checks in a row that end in the same fault are one. -/
theorem FailsBy.merge {P P' P'' : Prop} [Decidable P] [Decidable P'] [Decidable P'']
    (h : FailsBy (⟨P, f⟩ :: ⟨P', f⟩ :: cs) Q x p) (hiff : P'' ↔ P ∨ P') :
    FailsBy (⟨P'', f⟩ :: cs) Q x p := by
  refine h.congr (firstFault_merge ?_ cs)
  rw [← Bool.decide_or]
  exact decide_eq_decide.mpr hiff

/-! ## Operands and registers -/

theorem byteAt_eq {a : Int} {b : UInt8} (h : p.memory.get? a = some b) : p.byteAt a = b := by
  rw [byteAt, h]
  rfl

theorem exists_register (b : UInt8) (hb : ¬ 8 ≤ b.toNat) : ∃ s : Register, b = UInt8.ofNat s := by
  refine ⟨⟨b.toNat, by omega⟩, ?_⟩
  exact UInt8.ofNat_toNat.symm

/-- The error of an access that misses a full block. -/
theorem missed_of_full {m : Memory} (h : m.Full) (a : Int) : m.missed a = .outside a 0 255 := by
  rw [Memory.missed, Memory.last, h.1, h.2]

/-- **An operand byte** may be missing. -/
theorem failsBy_operand (hfull : p.memory.Full) (hpc : 0 ≤ p.pc) {k : Int} (hk : 0 ≤ k) :
    FailsBy [p.missing k] (fun b q => b = p.byteAt (p.pc + k) ∧ q = p) (operand k) p := by
  apply failsBy_singleton
  · intro houtside
    have hcovers : ¬ p.memory.Covers (p.pc + k) := by
      rw [hfull.covers_iff]
      omega
    exact ⟨p, operand_eq_error_iff.mpr ⟨hcovers, by rw [missed_of_full hfull], rfl⟩⟩
  · intro hinside
    obtain ⟨b, hb⟩ := hfull.exists_get? (a := p.pc + k) (by omega)
    exact ⟨b, p, operand_eq_ok_iff.mpr ⟨hb, rfl⟩, (byteAt_eq hb).symm, rfl⟩

theorem register?_of_noRegister {b : UInt8} (hb : 8 ≤ b.toNat) : register? b.toNat = none := by
  rw [register?_eq_none_iff]
  omega

theorem failsBy_readRegister (b : UInt8) :
    FailsBy [noRegister b] (fun _ q => b.toNat < 8 ∧ q = p) (readRegister b.toNat) p := by
  apply failsBy_singleton
  · intro hb
    exact ⟨p, readRegister_eq_error_iff.mpr ⟨register?_of_noRegister hb, rfl, rfl⟩⟩
  · intro hb
    obtain ⟨s, hs⟩ := exists_register b hb
    have hindex : ((s : Nat) : Int) = b.toNat := natCast_register_eq_iff.mpr hs
    exact ⟨_, p, readRegister_eq_ok_iff.mpr ⟨s, hindex, rfl, rfl⟩, by omega, rfl⟩

theorem failsBy_setRegister (b value : UInt8) :
    FailsBy [noRegister b] (fun _ q => ∃ s : Register, b = UInt8.ofNat s ∧
      q = p.withRegister s value) (setRegister b.toNat value) p := by
  apply failsBy_singleton
  · intro hb
    exact ⟨p, setRegister_eq_error_iff.mpr ⟨register?_of_noRegister hb, rfl, rfl⟩⟩
  · intro hb
    obtain ⟨s, hs⟩ := exists_register b hb
    have hindex : ((s : Nat) : Int) = b.toNat := natCast_register_eq_iff.mpr hs
    exact ⟨(), _, setRegister_eq_ok_iff.mpr ⟨s, hindex, rfl⟩, s, hs, rfl⟩

/-- **An operand register** is checked as soon as its byte is read. -/
theorem failsBy_registerOperand (hfull : p.memory.Full) (hpc : 0 ≤ p.pc) {k : Int} (hk : 0 ≤ k) :
    FailsBy [p.missing k, noRegister (p.byteAt (p.pc + k))] (fun _ q => q = p)
      (registerOperand k) p := by
  refine (failsBy_operand hfull hpc hk).bind (d := [noRegister (p.byteAt (p.pc + k))]) ?_
  rintro _ p ⟨rfl, rfl⟩
  exact (failsBy_readRegister _).imp fun _ _ h => h.2

/-! ## The stack -/

theorem failsBy_pushByte (hfull : p.memory.Full) (b : UInt8) :
    FailsBy [p.noRoom] (fun _ q => q.memory.Full ∧ q.sp.toNat + 1 = p.sp.toNat)
      (pushByte b) p := by
  apply failsBy_singleton
  · intro h0
    exact ⟨p, pushByte_eq_error_iff.mpr (.inl ⟨h0, rfl, rfl⟩)⟩
  · intro h0
    obtain ⟨q, hq, hsaved⟩ := exists_pushByte hfull h0 b
    have hpointer := hsaved.pointer
    have hpos : p.sp.toNat ≠ 0 := fun h => h0 (UInt8.toNat_inj.mp h)
    rw [List.length_singleton] at hpointer
    exact ⟨(), q, hq, hsaved.full hfull, by omega⟩

/-- A push of an integer looks at the integer first. -/
theorem failsBy_push (hfull : p.memory.Full) (value : Int) :
    FailsBy [noStackValue value, p.noRoom]
      (fun _ q => q.memory.Full ∧ q.sp.toNat + 1 = p.sp.toNat) (push value) p := by
  rw [push]
  cases h : toByte? value with
  | none => exact firstFault_of_applies (decide_eq_true (toByte?_eq_none_iff.mp h))
  | some b =>
    have hvalue := toByte?_eq_some_iff.mp h
    have hb := b.toNat_lt
    refine (failsBy_pushByte hfull b).congr (firstFault_of_passes ?_).symm
    exact decide_eq_false (by omega)

/-- A byte always fits. -/
theorem failsBy_push_byte (hfull : p.memory.Full) (b : UInt8) :
    FailsBy [p.noRoom] (fun _ q => q.memory.Full ∧ q.sp.toNat + 1 = p.sp.toNat)
      (push b.toNat) p := by
  rw [push, toByte?_toNat]
  exact failsBy_pushByte hfull b

theorem failsBy_pushRegister (hfull : p.memory.Full) (s : Register) :
    FailsBy [p.noRoom] (fun _ q => q.memory.Full ∧ q.sp.toNat + 1 = p.sp.toNat)
      (pushRegister ((s : Nat) : Int)) p := by
  rw [FailsBy, pushRegister_eq]
  exact failsBy_pushByte hfull _

/-- **A row of pushes** has to fit below the pointer. -/
theorem failsBy_pushes (hfull : p.memory.Full) (rs : List Register) :
    FailsBy [⟨p.sp.toNat < rs.length, .stack .overflow⟩] (fun _ q => q.memory.Full)
      ((indices rs).forM pushRegister) p := by
  induction rs generalizing p with
  | nil =>
    refine (failsBy_nil (Q := fun _ q => q.memory.Full) (a := ()) (q := p) rfl hfull).congr ?_
    exact (firstFault_of_passes rfl).symm
  | cons s rs ih =>
    -- the first push looks for one byte, the others for as many as they are
    have hrow : FailsBy ([p.noRoom] ++ [⟨p.sp.toNat - 1 < rs.length, .stack .overflow⟩])
        (fun _ q => q.memory.Full) ((indices (s :: rs)).forM pushRegister) p := by
      show FailsBy _ _ (pushRegister ((s : Nat) : Int) >>= fun _ => (indices rs).forM pushRegister) p
      refine (failsBy_pushRegister hfull s).bind ?_
      rintro _ q ⟨hq, hpointer⟩
      exact (ih hq).iff (by omega)
    refine hrow.merge ?_
    rw [← UInt8.toNat_inj, List.length_cons]
    show p.sp.toNat < rs.length + 1 ↔ p.sp.toNat = 0 ∨ p.sp.toNat - 1 < rs.length
    omega

theorem failsBy_top (hfull : p.memory.Full) :
    FailsBy [] (fun b q => b = p.byteAt p.sp.toNat ∧ q = p) top p := by
  obtain ⟨b, hb⟩ := hfull.exists_get? (a := p.sp.toNat) (hfull.covers_iff.mp (hfull.covers p.sp))
  exact failsBy_nil (top_eq_ok_iff.mpr ⟨hb, rfl⟩) ⟨(byteAt_eq hb).symm, rfl⟩

theorem failsBy_raiseSp : FailsBy [⟨p.sp = 0xff, .stack .underflow⟩]
    (fun _ q => q.memory = p.memory ∧ q.sp.toNat = p.sp.toNat + 1) raiseSp p := by
  apply failsBy_singleton
  · intro hlast
    exact ⟨p, raiseSp_eq_error_iff.mpr ⟨hlast, rfl, rfl⟩⟩
  · intro hlast
    refine ⟨(), _, raiseSp_eq_ok_iff.mpr ⟨hlast, rfl⟩, rfl, ?_⟩
    rw [sp_withRegister_sp, toNat_add_one hlast]

/-- The pointer once a register has been set. -/
theorem sp_withRegister (s : Register) (b : UInt8) :
    (p.withRegister s b).sp = if UInt8.ofNat s = 7 then b else p.sp := by
  have hseven : UInt8.ofNat s = 7 ↔ Register.sp = s := by
    revert s
    decide
  rw [sp, registers_withRegister, Registers.get_set]
  simp only [hseven]
  rfl

/-- **A pop** raises the pointer that it finds after its destination has been written. -/
theorem failsBy_popInto (hfull : p.memory.Full) (b : UInt8) :
    FailsBy [noRegister b, ⟨p.popPointer b = 0xff, .stack .underflow⟩]
      (fun _ q => q.memory = p.memory ∧ q.sp.toNat = (p.popPointer b).toNat + 1)
      (popInto b.toNat) p := by
  refine (failsBy_top hfull).bind ?_
  rintro _ p ⟨rfl, rfl⟩
  refine (failsBy_setRegister b _).bind (d := [⟨p.popPointer b = 0xff, .stack .underflow⟩]) ?_
  rintro _ q ⟨s, rfl, rfl⟩
  have hpointer : (p.withRegister s (p.byteAt p.sp.toNat)).sp = p.popPointer (UInt8.ofNat s) :=
    sp_withRegister s _
  rw [← hpointer]
  exact failsBy_raiseSp

/-- A register that there is. -/
theorem failsBy_popInto_register (hfull : p.memory.Full) (s : Register) :
    FailsBy [⟨p.popPointer (UInt8.ofNat s) = 0xff, .stack .underflow⟩]
      (fun _ q => q.memory = p.memory ∧ q.sp.toNat = (p.popPointer (UInt8.ofNat s)).toNat + 1)
      (popInto ((s : Nat) : Int)) p := by
  have hpop := failsBy_popInto hfull (UInt8.ofNat s)
  rw [← natCast_register_eq_iff.mpr rfl] at hpop
  refine hpop.congr (firstFault_of_passes ?_)
  have hlt := s.isLt
  exact decide_eq_false (by rw [UInt8.toNat_ofNat']; omega)

theorem popPointer_of_ne {s : Register} (hs : s ≠ .sp) : p.popPointer (UInt8.ofNat s) = p.sp := by
  refine if_neg ?_
  revert s
  decide

/-- **A row of pops** has to fit above the pointer, unless it replaces the pointer. -/
theorem failsBy_pops (hfull : p.memory.Full) {rs : List Register} (hsp : .sp ∉ rs) :
    FailsBy [⟨255 < p.sp.toNat + rs.length, .stack .underflow⟩]
      (fun _ q => q.memory = p.memory ∧ q.sp.toNat = p.sp.toNat + rs.length)
      ((indices rs).forM popInto) p := by
  induction rs generalizing p with
  | nil =>
    refine (failsBy_nil (a := ()) (q := p) rfl ⟨rfl, rfl⟩).congr (firstFault_of_passes ?_).symm
    have hlt := p.sp.toNat_lt
    exact decide_eq_false (by rw [List.length_nil]; omega)
  | cons s rs ih =>
    rw [List.mem_cons, not_or] at hsp
    have hrow : FailsBy ([⟨p.sp = 0xff, .stack .underflow⟩] ++
          [⟨255 < p.sp.toNat + 1 + rs.length, .stack .underflow⟩])
        (fun _ q => q.memory = p.memory ∧ q.sp.toNat = p.sp.toNat + (s :: rs).length)
        ((indices (s :: rs)).forM popInto) p := by
      show FailsBy _ _ (popInto ((s : Nat) : Int) >>= fun _ => (indices rs).forM popInto) p
      have hpop := failsBy_popInto_register hfull s
      rw [popPointer_of_ne (Ne.symm hsp.1)] at hpop
      refine hpop.bind ?_
      rintro _ q ⟨hmemory, hpointer⟩
      have hrest := ih (p := q) (by rw [hmemory]; exact hfull) hsp.2
      rw [hpointer, hmemory] at hrest
      refine hrest.imp ?_
      rintro _ r ⟨hm, hr⟩
      refine ⟨hm, ?_⟩
      rw [hr, List.length_cons]
      omega
    refine hrow.merge ?_
    rw [← UInt8.toNat_inj, List.length_cons]
    show 255 < p.sp.toNat + (rs.length + 1) ↔ p.sp.toNat = 255 ∨ 255 < p.sp.toNat + 1 + rs.length
    omega

theorem failsBy_popPc (hfull : p.memory.Full) :
    FailsBy [⟨p.sp = 0xff, .stack .underflow⟩] (fun _ _ => True) popPc p := by
  refine (failsBy_top hfull).bind ?_
  rintro b p ⟨-, rfl⟩
  have hjump : jump b.toNat p = .ok () { p with pc := b.toNat } := rfl
  refine (failsBy_nil hjump (Q := fun _ q => q.sp = p.sp) rfl).bind
    (d := [⟨p.sp = 0xff, .stack .underflow⟩]) ?_
  intro _ q hq
  rw [← hq]
  exact failsBy_raiseSp.imp fun _ _ _ => trivial

/-- **The registers are popped** from the byte on top, which becomes the pointer, if there is room for
    the seven others above it. -/
theorem failsBy_popRegisters (hfull : p.memory.Full) :
    FailsBy [⟨248 ≤ (p.byteAt p.sp.toNat).toNat, .stack .underflow⟩]
      (fun _ q => q.memory = p.memory ∧ q.sp.toNat = (p.byteAt p.sp.toNat).toNat + 8)
      ([7, 6, 5, 4, 3, 2, 1, 0].forM popInto) p := by
  have hlength : restorable.length = 7 := rfl
  generalize hm : p.byteAt p.sp.toNat = m
  have hpointer : p.popPointer (UInt8.ofNat (Register.sp : Nat)) = m := hm
  have hrow : FailsBy
      ([⟨m = 0xff, .stack .underflow⟩] ++ [⟨255 < m.toNat + 1 + 7, .stack .underflow⟩])
      (fun _ q => q.memory = p.memory ∧ q.sp.toNat = m.toNat + 8)
      ([7, 6, 5, 4, 3, 2, 1, 0].forM popInto) p := by
    show FailsBy _ _ (popInto ((Register.sp : Nat) : Int) >>= fun _ =>
      (indices restorable).forM popInto) p
    have hpop := failsBy_popInto_register hfull .sp
    rw [hpointer] at hpop
    refine hpop.bind ?_
    rintro _ q ⟨hmemory, hq⟩
    have hrest := failsBy_pops (p := q) (by rwa [hmemory]) sp_notMem_restorable
    rw [hq, hlength] at hrest
    refine hrest.imp ?_
    rintro _ r ⟨hm, hr⟩
    exact ⟨hm.trans hmemory, by omega⟩
  refine hrow.merge ?_
  rw [← UInt8.toNat_inj]
  show 248 ≤ m.toNat ↔ m.toNat = 255 ∨ 255 < m.toNat + 1 + 7
  omega

/-- **The return from an interrupt** finds a frame exactly if the byte on top, which becomes the
    pointer, leaves room for the eight others. -/
theorem failsBy_returnFromInterrupt (hfull : p.memory.Full) :
    FailsBy [⟨0xf7 ≤ p.byteAt p.sp.toNat, .stack .underflow⟩] (fun _ _ => True)
      returnFromInterrupt p := by
  have hpops := failsBy_popRegisters hfull
  generalize p.byteAt p.sp.toNat = m at hpops ⊢
  have hrow : FailsBy
      ([⟨248 ≤ m.toNat, .stack .underflow⟩] ++ [⟨m.toNat + 8 = 255, .stack .underflow⟩])
      (fun _ _ => True) returnFromInterrupt p := by
    refine hpops.bind ?_
    rintro _ q ⟨hmemory, hq⟩
    have hlast := (failsBy_popPc (p := q) (by rwa [hmemory])).andThen
      fun _ => sure_modify fun p : Processor => { p with interruptsEnabled := true }
    refine hlast.iff ?_
    rw [← UInt8.toNat_inj, hq]
    rfl
  refine hrow.merge ?_
  rw [UInt8.le_iff_toNat_le]
  show 247 ≤ m.toNat ↔ 248 ≤ m.toNat ∨ m.toNat + 8 = 255
  omega

/-! ## The operations -/

theorem failsBy_arithmetic (hfull : p.memory.Full) (hpc : 0 ≤ p.pc) (op : AluOperation) :
    FailsBy [p.missing 1, p.missing 2, noRegister (p.byteAt (p.pc + 2)),
      noRegister (p.byteAt (p.pc + 1))] (fun _ _ => True) (arithmetic op) p := by
  refine (failsBy_operand hfull hpc (by decide)).bind
    (d := [p.missing 2, noRegister (p.byteAt (p.pc + 2)), noRegister (p.byteAt (p.pc + 1))]) ?_
  rintro _ p ⟨rfl, rfl⟩
  refine (failsBy_registerOperand hfull hpc (by decide)).bind
    (d := [noRegister (p.byteAt (p.pc + 1))]) ?_
  rintro b p rfl
  refine (failsBy_readRegister _).bind (d := []) ?_
  rintro a p ⟨hindex, rfl⟩
  -- the destination is there, since it has just been read
  refine ((failsBy_setRegister _ _).congr (firstFault_of_passes ?_)).andThen fun _ => sure_advance 3
  exact decide_eq_false (by omega)

/-- Two operand registers, each checked as soon as its byte is read. -/
theorem failsBy_two_operands {g : UInt8 → UInt8 → Step β} (hfull : p.memory.Full) (hpc : 0 ≤ p.pc)
    (hg : ∀ a b, FailsBy [] R (g a b) p) :
    FailsBy [p.missing 1, noRegister (p.byteAt (p.pc + 1)), p.missing 2,
      noRegister (p.byteAt (p.pc + 2))] R
      (registerOperand 1 >>= fun a => registerOperand 2 >>= fun b => g a b) p := by
  refine (failsBy_registerOperand hfull hpc (by decide)).bind
    (d := [p.missing 2, noRegister (p.byteAt (p.pc + 2))]) ?_
  rintro a p rfl
  refine (failsBy_registerOperand hfull hpc (by decide)).bind (d := []) ?_
  rintro b p rfl
  exact hg a b

theorem failsBy_jumpIf (hfull : p.memory.Full) (hpc : 0 ≤ p.pc) (wanted : Bool) :
    FailsBy (if p.equal = some wanted then [p.missing 1, noRegister (p.byteAt (p.pc + 1))] else [])
      (fun _ _ => True) (jumpIf wanted) p := by
  by_cases htaken : p.equal = some wanted
  · rw [if_pos htaken, FailsBy, jumpIf_of_eq htaken]
    exact (failsBy_registerOperand hfull hpc (by decide)).andThen fun _ => sure_jump _
  · rw [if_neg htaken, FailsBy, jumpIf_of_ne htaken]
    exact ⟨rfl, trivial⟩

/-- **An operation fails by its checks.** -/
theorem failsBy_execute (hfull : p.memory.Full) (hpc : 0 ≤ p.pc) (op : Operation) :
    FailsBy (p.checks op) (fun _ _ => True) (execute op) p := by
  cases op with
  | nop | hlt => exact failsBy_nil rfl trivial
  | ldi =>
    refine (failsBy_operand hfull hpc (by decide)).bind
      (d := [p.missing 2, noRegister (p.byteAt (p.pc + 1))]) ?_
    rintro _ p ⟨rfl, rfl⟩
    refine (failsBy_operand hfull hpc (by decide)).bind
      (d := [noRegister (p.byteAt (p.pc + 1))]) ?_
    rintro value p ⟨-, rfl⟩
    exact (failsBy_setRegister _ value).andThen fun _ =>
      (sure_advance 3).bind fun _ => sure_pure _
  | add | mul => exact (failsBy_arithmetic hfull hpc _).andThen fun _ => sure_pure _
  | cmp =>
    refine FailsBy.andThen (Q := fun _ _ => True) ?_ fun _ => sure_pure _
    exact failsBy_two_operands hfull hpc fun a b => failsBy_nil rfl trivial
  | st =>
    refine failsBy_two_operands hfull hpc fun a b => ?_
    obtain ⟨m, hm⟩ := Memory.store_isOk_iff (b := b) |>.mpr (hfull.covers a)
    have hstore : storeByte a.toNat b p = .ok () { p with memory := m } :=
      storeByte_eq_ok_iff.mpr ⟨m, hm, rfl⟩
    exact (failsBy_nil hstore (Q := fun _ _ => True) trivial).andThen fun _ =>
      (sure_advance 3).bind fun _ => sure_pure _
  | prn | pra =>
    exact (failsBy_registerOperand hfull hpc (by decide)).andThen fun _ => sure_pure _
  | jmp =>
    exact (failsBy_registerOperand hfull hpc (by decide)).andThen fun _ =>
      (sure_jump _).bind fun _ => sure_pure _
  | jeq | jne => exact (failsBy_jumpIf hfull hpc _).andThen fun _ => sure_pure _
  | push =>
    refine (failsBy_registerOperand hfull hpc (by decide)).bind (d := [p.noRoom]) ?_
    rintro b p rfl
    exact (failsBy_push_byte hfull b).andThen fun _ => (sure_advance 2).bind fun _ => sure_pure _
  | pop =>
    refine (failsBy_operand hfull hpc (by decide)).bind (d := [noRegister (p.byteAt (p.pc + 1)),
      ⟨p.popPointer (p.byteAt (p.pc + 1)) = 0xff, .stack .underflow⟩]) ?_
    rintro _ p ⟨rfl, rfl⟩
    exact (failsBy_popInto hfull _).andThen fun _ => (sure_advance 2).bind fun _ => sure_pure _
  | call =>
    refine (failsBy_registerOperand hfull hpc (by decide)).bind
      (d := [noStackValue (p.pc + 2), p.noRoom]) ?_
    rintro target p rfl
    exact (failsBy_push hfull (p.pc + 2)).andThen fun _ => (sure_jump _).bind fun _ => sure_pure _
  | ret => exact (failsBy_popPc hfull).andThen fun _ => sure_pure _
  | iret => exact (failsBy_returnFromInterrupt hfull).andThen fun _ => sure_pure _

/-- **The entry of an interrupt fails by its checks.** -/
theorem failsBy_enterInterrupt (hfull : p.memory.Full) (line : Register) :
    FailsBy p.entryChecks (fun _ _ => True) (enterInterrupt line) p := by
  rw [FailsBy, enterInterrupt_eq]
  have hsp : (p.acknowledged line).sp = p.sp := Registers.get_set_ne _ (by decide) _
  have hafull : (p.acknowledged line).memory.Full := hfull
  have hentry : FailsBy (noStackValue p.pc :: ⟨p.sp = 0, .stack .overflow⟩ ::
      [⟨p.sp.toNat - 1 < 8, .stack .overflow⟩]) (fun _ _ => True)
      (push p.pc >>= fun _ => (indices (List.finRange 8)).forM pushRegister >>= fun _ =>
        readByte (vectorTable + (line : Nat)) >>= fun b => jump b.toNat) (p.acknowledged line) := by
    rw [← hsp]
    refine (failsBy_push hafull p.pc).bind ?_
    rintro _ q ⟨hq, hpointer⟩
    refine FailsBy.iff (P := q.sp.toNat < 8) ?_ (by omega)
    refine (failsBy_pushes hq (List.finRange 8)).bind (d := []) ?_
    intro _ r hr
    obtain ⟨target, htarget⟩ := hr.exists_get? (a := vectorTable + (line : Nat))
      (by simp only [vectorTable]; omega)
    exact (failsBy_nil (readByte_of_get? htarget) (Q := fun _ _ => True) trivial).andThen
      fun _ => sure_jump _
  refine hentry.congr ?_
  -- the two checks of the pointer are one, whatever the check before them says
  show firstFault ([noStackValue p.pc] ++ _) = firstFault ([noStackValue p.pc] ++ _)
  rw [firstFault_append, firstFault_append, firstFault_merge]
  rw [← Bool.decide_or, decide_eq_decide, ← UInt8.toNat_inj]
  show p.sp.toNat < 9 ↔ p.sp.toNat = 0 ∨ p.sp.toNat - 1 < 8
  omega

end Processor

end Ls8
