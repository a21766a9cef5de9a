import Ls8.Proofs.Faults.Verdict
import Ls8.Proofs.InterruptNesting
import Ls8.Proofs.MemoryFootprint

/-
  What a tick leaves behind when it faults.

  What was done before a fault is not undone, and the operations check and write in different
  orders.  On a full block, where a byte is always an address, four cases remain in which something
  has happened before the fault:

    * a pop has written its destination before it finds the pointer at the last address;
    * a return has gone to the popped address before that;
    * an interrupt return has popped some of its registers, and has got as far as the program
      counter only if it takes the pointer to the last address with the register before
      (`pc_of_returnFromInterrupt_error`);
    * an entry has acknowledged its line before its first push, and has pushed until the pointer
      stood at zero (`sp_of_enterInterrupt_error`).

  A push and a call check the pointer before they lower it, so on a full block they are done wholly
  or not at all.

  Main statement: `faulting_tick_leaves`.
-/

namespace Ls8

variable {σ ε : Type}

namespace Processor

variable {p q : Processor} {f : Fault}

/-! ## Pushes -/

/-- On a full block a push fails only at the pointer zero, and then does nothing. -/
theorem pushByte_error_of_full {b : UInt8} (hfull : p.memory.Full) (h : pushByte b p = .error f q) :
    p.sp = 0 ∧ f = .stack .overflow ∧ q = p := by
  rcases pushByte_eq_error_iff.mp h with hroom | ⟨_, hcovers, _⟩
  · exact hroom
  · exact absurd (hfull.covers _) hcovers

/-- On a full block a push that fails does nothing. -/
theorem push_error_of_full {value : Int} (hfull : p.memory.Full) (h : push value p = .error f q) :
    q = p := by
  rcases push_eq_error_iff.mp h with ⟨_, _, hq⟩ | ⟨b, _, hpush⟩
  · exact hq
  · exact (pushByte_error_of_full hfull hpush).2.2

/-- **A row of pushes that fails** on a full block has come to the pointer zero. -/
theorem sp_of_pushes_error (rs : List Register) (hfull : p.memory.Full)
    (h : (indices rs).forM pushRegister p = .error f q) : f = .stack .overflow ∧ q.sp = 0 := by
  induction rs generalizing p with
  | nil => cases h
  | cons s rs ih =>
    rcases bind_eq_error_iff.mp h with hfirst | ⟨_, r, hfirst, hrest⟩
    · -- the first push fails, and then it leaves the pointer where it was
      rw [pushRegister_eq] at hfirst
      obtain ⟨hzero, hf, rfl⟩ := pushByte_error_of_full hfull hfirst
      exact ⟨hf, hzero⟩
    · rw [pushRegister_eq] at hfirst
      exact ih ((saved_of_pushByte hfirst).full hfull) hrest

/-! ## Operations -/

/-- **An operation other than a pop or a return** that fails on a full block does nothing. -/
theorem execute_error_of_full {op : Operation} (hfull : p.memory.Full)
    (hop : op ∉ [.pop, .ret, .iret]) (h : execute op p = .error f q) : q = p := by
  cases op with
  | pop | ret | iret => exact absurd (by decide) hop
  | push =>
    rcases bind_eq_error_iff.mp h with hread | ⟨a, r, hread, hrest⟩
    · exact clean_registerOperand 1 p q f hread
    · rw [reading_registerOperand 1 p r a hread] at hrest
      exact push_error_of_full hfull
        (error_of_sure (fun _ => (sure_advance 2).bind fun _ => sure_pure _) hrest)
  | call =>
    rcases bind_eq_error_iff.mp h with hread | ⟨a, r, hread, hrest⟩
    · exact clean_registerOperand 1 p q f hread
    · rw [reading_registerOperand 1 p r a hread, bind_of_ok (get_eq_ok_iff.mpr ⟨rfl, rfl⟩)] at hrest
      exact push_error_of_full hfull
        (error_of_sure (fun _ => (sure_jump _).bind fun _ => sure_pure _) hrest)
  | nop | ldi | add | mul | cmp | prn | pra | jmp | jeq | jne | st | hlt =>
    exact clean_execute id p q f h

/-- **A pop that fails** on a full block does nothing, unless it fails at the last address: then it
    has written its destination. -/
theorem pop_error_of_full (hfull : p.memory.Full) (h : execute .pop p = .error f q) :
    (f ≠ .stack .underflow ∧ q = p) ∨
    (f = .stack .underflow ∧ ∃ s b, p.Names 1 s ∧ p.memory.get? p.sp.toNat = some b ∧
      q = p.withRegister s b) := by
  rcases bind_eq_error_iff.mp h with hread | ⟨i, r, hread, hrest⟩
  · obtain ⟨_, rfl, rfl⟩ := operand_eq_error_iff.mp hread
    exact .inl ⟨nofun, rfl⟩
  · obtain ⟨hi, rfl⟩ := operand_eq_ok_iff.mp hread
    have hpop := error_of_sure (fun _ => (sure_advance 2).bind fun _ => sure_pure _) hrest
    rcases popInto_eq_error_iff.mp hpop with ⟨hcovers, _⟩ | ⟨_, _, _, rfl, rfl⟩ |
      ⟨s, b, hs, hb, _, rfl, rfl⟩
    · exact absurd (hfull.covers _) hcovers
    · exact .inl ⟨nofun, rfl⟩
    · have hnames : i = UInt8.ofNat s := natCast_register_eq_iff.mp hs
      rw [hnames] at hi
      exact .inr ⟨rfl, s, b, hi, hb, rfl⟩

/-- A pop of the program counter that fails on a full block has gone to the byte at the last
    address. -/
theorem popPc_error_of_full (hfull : p.memory.Full) (h : popPc p = .error f q) :
    p.sp = 0xff ∧ ∃ b, p.memory.get? 0xff = some b ∧ q = { p with pc := b.toNat } := by
  rcases popPc_eq_error_iff.mp h with ⟨hcovers, _⟩ | ⟨b, hb, hlast, _, hq⟩
  · exact absurd (hfull.covers _) hcovers
  · rw [hlast] at hb
    exact ⟨hlast, b, hb, hq⟩

/-- **An interrupt return that fails** on a full block leaves the program counter, unless the byte
    on top is `0xf7`: then all registers were popped, and only the last pop failed. -/
theorem pc_of_returnFromInterrupt_error (hfull : p.memory.Full)
    (h : returnFromInterrupt p = .error f q) :
    q.pc = p.pc ∨ p.memory.get? p.sp.toNat = some 0xf7 ∧
      ∃ b, p.memory.get? 0xff = some b ∧ q.pc = b.toNat := by
  have hframe := left_forM (R := RegistersOnly) (fun _ => rfl) .trans [7, 6, 5, 4, 3, 2, 1, 0]
    (fun i _ => registersOnly_popInto i) p
  simp only [returnFromInterrupt, bind_eq_error_iff, modify_ne_error, and_false, exists_false,
    or_false] at h
  rcases h with hpops | ⟨_, r, hpops, hlast⟩
  · rw [left_of_error hpops] at hframe
    exact .inl (by rw [hframe])
  · obtain ⟨hmemory, hpointer⟩ := ((failsBy_popRegisters hfull).of_ok hpops).2
    obtain ⟨hsp, b, hb, rfl⟩ := popPc_error_of_full (by rwa [hmemory]) hlast
    obtain ⟨m, hm⟩ := hfull.exists_get? (hfull.covers_iff.mp (hfull.covers p.sp))
    -- eight pops above the byte on top the pointer stands at the last address
    have hbottom : m = 0xf7 := by
      rw [byteAt_eq hm, hsp] at hpointer
      rw [← UInt8.toNat_inj]
      have hlast : (0xff : UInt8).toNat = 255 := rfl
      have hseven : (0xf7 : UInt8).toNat = 247 := rfl
      omega
    rw [hbottom] at hm
    rw [hmemory] at hb
    exact .inr ⟨hm, b, hb, rfl⟩

/-! ## Entries -/

/-- **An entry that fails** on a full block: the program counter was refused and nothing was pushed,
    or bytes were pushed until the pointer stood at zero. -/
theorem sp_of_enterInterrupt_error {line : Register} (hfull : p.memory.Full)
    (h : enterInterrupt line p = .error f q) :
    (f = .operand (.stackValue p.pc) ∧ q = p.acknowledged line) ∨
      (f = .stack .overflow ∧ q.sp = 0) := by
  have hafull : (p.acknowledged line).memory.Full := hfull
  rw [enterInterrupt_eq_saveFrame] at h
  rcases bind_eq_error_iff.mp (error_of_sure (fun b : UInt8 => sure_jump b.toNat) h) with
    hback | ⟨_, r, hback, hrest⟩
  · rcases push_eq_error_iff.mp hback with ⟨_, hf, hq⟩ | ⟨b, _, hpush⟩
    · exact .inl ⟨hf, hq⟩
    · obtain ⟨hzero, hf, rfl⟩ := pushByte_error_of_full hafull hpush
      exact .inr ⟨hf, hzero⟩
  · obtain ⟨b, _, hpush⟩ := push_eq_ok_iff.mp hback
    have hrfull : r.memory.Full := (saved_of_pushByte hpush).full hafull
    rcases bind_eq_error_iff.mp hrest with hsave | ⟨_, s, hsave, hvector⟩
    · exact .inr (sp_of_pushes_error (List.finRange 8) hrfull hsave)
    · -- the vector table lies in the block
      have hsfull := ((failsBy_pushes hrfull (List.finRange 8)).of_ok hsave).2
      obtain ⟨hcovers, _⟩ := readByte_eq_error_iff.mp hvector
      refine absurd (hsfull.covers_iff.mpr ?_) hcovers
      rw [vectorTable]
      omega

end Processor

/-! ## Ticks -/

/-- **The tick faulted:** the fault is kept and reported. -/
def Turn.Faults (turn : Turn σ ε) (f : Fault) : Prop :=
  turn.cpu.fault = some f ∧ .report f.message ∈ turn.effects

/-- **What a tick of `c` that ends in the fault `f` leaves:** the processor `q`.

    Nothing is done but to halt (`kept`), except that
    * a pop that underflows has written its destination;
    * a return has gone to the byte at the last address;
    * an interrupt return has changed registers, and the program counter only if the byte on top was
      the one address from which just the last pop fails;
    * an entry has disabled interrupts and taken its line out of the pending ones, and has pushed
      until the pointer stood at zero if it overflowed. -/
structure Cpu.Aftermath (c : Cpu) (f : Fault) (q : Processor) : Prop where
  kept : (∀ line, ¬ c.Enters line) → (∀ op ∈ [.pop, .ret, .iret], ¬ c.Executes op) →
    q = { c.processor with ir := q.ir, halted := true }
  popRefused : c.Executes .pop → f ≠ .stack .underflow →
    q = { c.processor with ir := q.ir, halted := true }
  popUnderflow : c.Executes .pop → f = .stack .underflow →
    ∃ r b, c.processor.Names 1 r ∧ c.processor.memory.get? c.processor.sp.toNat = some b ∧
      q = { c.processor.withRegister r b with ir := q.ir, halted := true }
  ret : c.Executes .ret → ∃ b, c.processor.memory.get? 0xff = some b ∧
    q = { c.processor with pc := b.toNat, ir := q.ir, halted := true }
  iret : c.Executes .iret →
    q = { c.processor with registers := q.registers, pc := q.pc, ir := q.ir, halted := true } ∧
    (q.pc = c.processor.pc ∨ c.processor.memory.get? c.processor.sp.toNat = some 0xf7 ∧
      ∃ b, c.processor.memory.get? 0xff = some b ∧ q.pc = b.toNat)
  entry : ∀ line, c.Enters line → q = { c.processor with
    registers := (c.processor.registers.set .status
      (c.processor.registers.get .status &&& ~~~ lineBit line)).set .sp q.sp
    memory := q.memory
    interruptsEnabled := false
    halted := true }
  entryOverflow : ∀ line, c.Enters line → (∃ e, f = .stack e) →
    q.sp = 0 ∧ ∀ a : Int, c.processor.sp.toNat ≤ a → q.memory.get? a = c.processor.memory.get? a
  entryRefused : ∀ line, c.Enters line → (∀ e, f ≠ .stack e) →
    q.sp = c.processor.sp ∧ q.memory = c.processor.memory

namespace Cpu

variable {outlet : Outlet σ ε} {c : Cpu} {host : σ} {f : Fault}

/-- The verdict on a tick that faulted. -/
theorem firstFault_of_faults (houtlet : outlet.Calm) (hfull : c.processor.memory.Full)
    (hrun : c.processor.halted = false) (h : (c.tick outlet host).Faults f) :
    firstFault c.checks = some f := by
  have hjudged := tick_faults_exactly outlet host houtlet hfull hrun
  have hreported : f.message ∈ (c.tick outlet host).effects.filterMap Effect.report? :=
    List.mem_filterMap.mpr ⟨_, h.2, rfl⟩
  rw [hjudged.reports] at hreported
  cases hverdict : firstFault c.checks with
  | none =>
    rw [hverdict] at hreported
    exact absurd hreported List.not_mem_nil
  | some g =>
    have hkept := hjudged.fault
    rw [h.1, hverdict, Option.some_or] at hkept
    exact hkept.symm

/-- A tick that faults while it enters an interrupt. -/
theorem exists_of_enters (outlet : Outlet σ ε) (host : σ) {line : Register}
    (hfull : c.processor.memory.Full) (hverdict : firstFault c.checks = some f)
    (hline : c.Enters line) :
    ∃ q, Processor.enterInterrupt line c.processor = .error f q ∧ c.tick outlet host =
      ((c.entering line).withProcessor q).faulted host [c.entryNotice line] f := by
  rw [checks_of_nextLine? hline.2] at hverdict
  have hfails := Processor.failsBy_enterInterrupt hfull line
  cases h : Processor.enterInterrupt line c.processor with
  | ok u q =>
    rw [(hfails.of_ok h).1] at hverdict
    cases hverdict
  | error g q =>
    have hg := hfails.of_error h
    rw [hverdict] at hg
    obtain rfl : f = g := Option.some.inj hg
    exact ⟨q, rfl, tick_of_entry_fault hline.1 hline.2 h⟩

/-- A tick whose operation faults. -/
theorem exists_of_executes (outlet : Outlet σ ε) (host : σ) {op : Operation}
    (hfull : c.processor.memory.Full) (hverdict : firstFault c.checks = some f)
    (hexec : c.Executes op) :
    ∃ opcode i q, Processor.execute op { c.processor with ir := opcode } = .error f q ∧
      c.tick outlet host = ((c.fetching opcode i.mnemonic).withProcessor q).faulted host
        [(c.fetching opcode i.mnemonic).fetched i] f := by
  obtain ⟨hrun, hidle, hop⟩ := hexec
  obtain ⟨i, hi, rfl⟩ := Option.map_eq_some_iff.mp hop
  obtain ⟨opcode, hbyte, hentry⟩ := instruction?_eq_some_iff.mp hi
  have hpc := hfull.covers_iff.mp (Memory.get?_isSome_iff.mp (Option.isSome_of_eq_some hbyte))
  rw [firstFault_of_instruction hfull hidle hbyte hentry] at hverdict
  have hfails := Processor.failsBy_execute (p := (c.fetching opcode i.mnemonic).processor) hfull
    hpc.1 i.operation
  rw [processor_fetching, Processor.checks_withIr] at hfails
  refine ⟨opcode, i, ?_⟩
  rw [tick_of_idle hrun hidle, step_of_instruction hbyte hentry]
  cases h : Processor.execute i.operation { c.processor with ir := opcode } with
  | ok out q =>
    rw [(hfails.of_ok h).1] at hverdict
    cases hverdict
  | error g q =>
    have hg := hfails.of_error h
    rw [hverdict] at hg
    obtain rfl : f = g := Option.some.inj hg
    exact ⟨q, rfl, perform_of_error h⟩

/-- A tick that neither enters an interrupt nor finds an instruction. -/
theorem exists_of_no_instruction (outlet : Outlet σ ε) (host : σ)
    (hrun : c.processor.halted = false) (hidle : c.processor.nextLine? = none)
    (hi : c.instruction? = none) :
    ∃ (d : Cpu) (g : Fault) (b : UInt8), d.processor = { c.processor with ir := b } ∧
      c.tick outlet host = d.faulted host [] g := by
  rw [tick_of_idle hrun hidle]
  cases hbyte : c.processor.memory.get? c.processor.pc with
  | none =>
    exact ⟨c.counted, _, c.processor.ir, rfl,
      step_of_not_covers (Memory.get?_eq_none_iff.mp hbyte)⟩
  | some opcode =>
    have hentry : c.table.get opcode = none := by
      rwa [instruction?, hbyte] at hi
    exact ⟨c.fetching opcode "", _, opcode, rfl, step_of_illegal hbyte hentry⟩

/-! ## What is left, course by course -/

variable {q : Processor}

/-- A tick executes one operation. -/
theorem Executes.unique {op op' : Operation} (h : c.Executes op) (h' : c.Executes op') : op' = op :=
  Option.some.inj (h'.2.2.symm.trans h.2.2)

/-- What an entry that faults leaves. -/
theorem aftermath_of_enters {line : Register} (hfull : c.processor.memory.Full)
    (hline : c.Enters line) (hq : Processor.enterInterrupt line c.processor = .error f q) :
    c.Aftermath f { q with halted := true } := by
  have hother {op : Operation} {P : Prop} (h : c.Executes op) : P := absurd hline h.not_enters
  have hsame {line' : Register} (h : c.Enters line') : line' = line :=
    Option.some.inj (h.2.symm.trans hline.2)
  have hpushed := Processor.pushedOnly_of_enterInterrupt_error hq
  have hwritten := Processor.pushedUpTo_enterInterrupt line c.processor
  rw [Processor.left_of_error hq] at hwritten
  have hends := Processor.sp_of_enterInterrupt_error hfull hq
  constructor
  · intro hnone _
    exact absurd hline (hnone line)
  · exact fun h => hother h
  · exact fun h => hother h
  · exact fun h => hother h
  · exact fun h => hother h
  · intro line' hline'
    rw [hsame hline']
    exact congrArg (fun q : Processor => { q with halted := true }) hpushed
  · rintro _ _ ⟨e, rfl⟩
    rcases hends with ⟨hf, _⟩ | ⟨_, hzero⟩
    · cases hf
    · refine ⟨hzero, fun a ha => ?_⟩
      exact hwritten.kept a (.inr ha)
  · intro _ _ hf
    rcases hends with ⟨_, rfl⟩ | ⟨hover, _⟩
    · exact ⟨Processor.sp_acknowledged c.processor line, rfl⟩
    · exact absurd hover (hf _)

/-- What an operation that faults leaves. -/
theorem aftermath_of_executes {op : Operation} {opcode : UInt8} (hfull : c.processor.memory.Full)
    (hexec : c.Executes op)
    (hq : Processor.execute op { c.processor with ir := opcode } = .error f q) :
    c.Aftermath f { q with halted := true } := by
  have hentry {line : Register} {P : Prop} (h : c.Enters line) : P := absurd h hexec.not_enters
  -- the byte fetched last is all that the operation finds changed
  have hfetched : ({ c.processor with ir := opcode } : Processor).memory.Full := hfull
  constructor
  · intro _ hplain
    have hop : op ∉ [.pop, .ret, .iret] := fun hmem => hplain op hmem hexec
    rw [Processor.execute_error_of_full hfetched hop hq]
  · intro hpop hf
    obtain rfl := hexec.unique hpop
    rcases Processor.pop_error_of_full hfetched hq with ⟨_, rfl⟩ | ⟨hunder, _⟩
    · rfl
    · exact absurd hunder hf
  · intro hpop hf
    obtain rfl := hexec.unique hpop
    rcases Processor.pop_error_of_full hfetched hq with ⟨hother, _⟩ | ⟨_, s, b, hs, hb, rfl⟩
    · exact absurd hf hother
    · exact ⟨s, b, hs, hb, rfl⟩
  · intro hret
    obtain rfl := hexec.unique hret
    have hpop := Processor.error_of_sure (fun _ => Processor.sure_pure _) hq
    obtain ⟨_, b, hb, rfl⟩ := Processor.popPc_error_of_full hfetched hpop
    exact ⟨b, hb, rfl⟩
  · intro hiret
    obtain rfl := hexec.unique hiret
    have hreturn := Processor.error_of_sure (fun _ => Processor.sure_pure _) hq
    have hpc := Processor.pc_of_returnFromInterrupt_error hfetched hreturn
    refine ⟨?_, hpc⟩
    rw [(Processor.execute_error_frame hq).1]
  · exact fun line h => hentry h
  · exact fun line h => hentry h
  · exact fun line h => hentry h

/-- A tick without an instruction leaves everything. -/
theorem aftermath_of_no_instruction {b : UInt8} (hidle : c.processor.nextLine? = none)
    (hi : c.instruction? = none) :
    c.Aftermath f { c.processor with ir := b, halted := true } := by
  have hexec {op : Operation} {P : Prop} (h : c.Executes op) : P := by
    have hop := h.2.2
    rw [hi] at hop
    cases hop
  have hentry {line : Register} {P : Prop} (h : c.Enters line) : P := nomatch hidle.symm.trans h.2
  exact ⟨fun _ _ => rfl, fun h => hexec h, fun h => hexec h, fun h => hexec h, fun h => hexec h,
    fun _ h => hentry h, fun _ h => hentry h, fun _ h => hentry h⟩

/-- **What a faulting tick leaves behind.**  On a full block, with an outlet that does not fail, a
    tick of a running processor that faults puts nothing out and keeps the outcome of the last
    comparison; what else it leaves depends on what it was doing, as `Aftermath` says. -/
theorem faulting_tick_leaves (outlet : Outlet σ ε) (host : σ) (houtlet : outlet.Calm)
    (hfull : c.processor.memory.Full) (hrun : c.processor.halted = false)
    (hfault : (c.tick outlet host).Faults f) :
    let turn := c.tick outlet host
    turn.host = host ∧ (∀ s, .output s ∉ turn.effects) ∧
      turn.cpu.processor.equal = c.processor.equal ∧ c.Aftermath f turn.cpu.processor := by
  intro turn
  have hverdict := firstFault_of_faults houtlet hfull hrun hfault
  cases hline : c.processor.nextLine? with
  | some line =>
    obtain ⟨q, hq, htick⟩ := exists_of_enters outlet host hfull hverdict ⟨hrun, hline⟩
    have hequal : q.equal = c.processor.equal := by rw [Processor.enterInterrupt_error_frame hq]
    have hturn : turn = _ := htick
    rw [hturn]
    refine ⟨rfl, fun s => ?_, hequal, aftermath_of_enters hfull ⟨hrun, hline⟩ hq⟩
    simp [effects_faulted, entryNotice]
  | none =>
    cases hi : c.instruction? with
    | none =>
      obtain ⟨d, g, b, hd, htick⟩ := exists_of_no_instruction outlet host hrun hline hi
      have hturn : turn = _ := htick
      rw [hturn, processor_faulted, hd]
      refine ⟨rfl, fun s => ?_, rfl, aftermath_of_no_instruction hline hi⟩
      simp [effects_faulted]
    | some i =>
      have hexec : c.Executes i.operation := ⟨hrun, hline, by rw [hi]; rfl⟩
      obtain ⟨opcode, j, q, hq, htick⟩ := exists_of_executes outlet host hfull hverdict hexec
      have hequal : q.equal = c.processor.equal := by rw [(Processor.execute_error_frame hq).1]
      have hturn : turn = _ := htick
      rw [hturn]
      refine ⟨rfl, fun s => ?_, hequal, aftermath_of_executes hfull hexec hq⟩
      simp [effects_faulted, fetched]

/-- An entry that overflows after three bytes, and an interrupt return whose last pop underflows. -/
theorem faulting_tick_leaves_of_entry_and_return :
    let outlet : Outlet Unit String := .silent Unit String
    let entering : Cpu := { processor := {
      registers := ⟨#v[9, 8, 0, 0, 0, 3, 2, 3]⟩, pc := 7, memory := .holding [] } }
    let returning : Cpu := { processor := {
      registers := ⟨#v[0, 0, 0, 0, 0, 0, 0, 2]⟩, interruptsEnabled := false
      memory := .holding [0x1a, 0, 0xf7] } }
    let overflowed := (entering.tick outlet ()).cpu.processor
    let underflowed := (returning.tick outlet ()).cpu.processor
    overflowed.sp = 0 ∧ overflowed.pc = 7 ∧ overflowed.interruptsEnabled = false ∧
      overflowed.registers = ⟨#v[9, 8, 0, 0, 0, 3, 0, 0]⟩ ∧
      overflowed.memory.get? 3 = some 0 ∧
      underflowed.memory = returning.processor.memory ∧
      underflowed.interruptsEnabled = false := by
  intro outlet entering returning overflowed underflowed
  have hcalm : outlet.Calm := fun host s r hr => absurd hr List.not_mem_nil
  obtain ⟨_, _, _, hentry⟩ := faulting_tick_leaves (c := entering) (f := .stack .overflow) outlet ()
    hcalm (Memory.full_holding _) rfl ⟨by decide +kernel, by decide +kernel⟩
  obtain ⟨_, _, _, hreturn⟩ := faulting_tick_leaves (c := returning) (f := .stack .underflow) outlet
    () hcalm (Memory.full_holding _) rfl ⟨by decide +kernel, by decide +kernel⟩
  have henters : entering.Enters 1 := by decide +kernel
  have hexec : returning.Executes .iret := by decide +kernel
  obtain ⟨hzero, hkept⟩ := hentry.entryOverflow 1 henters ⟨_, rfl⟩
  have hframe := hentry.entry 1 henters
  have hregisters := congrArg Processor.registers hframe
  rw [show (entering.tick outlet ()).cpu.processor.sp = 0 from hzero] at hregisters
  have hreturned := (hreturn.iret hexec).1
  have hmemory := congrArg Processor.memory hreturned
  have hdisabled := congrArg Processor.interruptsEnabled hreturned
  exact ⟨hzero, congrArg Processor.pc hframe, congrArg Processor.interruptsEnabled hframe,
    hregisters.trans (by decide), (hkept 3 (by decide)).trans (by decide +kernel), hmemory,
    hdisabled⟩

end Cpu

end Ls8
