import Ls8.Proofs.History
import Ls8.Proofs.InterruptReturn

/-
  Pending interrupts whose handlers return at once.

  An entry and the return from it make a round.  What the return restores was saved after the line
  had been acknowledged, so a round takes exactly that line and leaves the others for the rounds to
  come.  Its frame lies in the nine bytes below the pointer, the vectors above the pointer, and the
  handlers elsewhere; so every round finds vectors and handlers as the first one did.

  `Resumes` says what a round may change, `Drained` what several rounds have done; both compose.

  Main statement: the lines that are pending are entered in ascending order, each once, and then the
  program goes on where it was (`pending_lines_drain`).
-/

namespace Ls8

variable {σ ε : Type}

/-! ## Lines of a byte -/

/-- The lines whose bits are set, in ascending order. -/
def linesOf (b : UInt8) : List Register := (List.finRange 8).filter (hasLine b)

theorem mem_linesOf {b : UInt8} {line : Register} : line ∈ linesOf b ↔ hasLine b line = true := by
  simp [linesOf]

theorem pairwise_linesOf (b : UInt8) : (linesOf b).Pairwise (· < ·) :=
  List.Pairwise.filter _ (by decide)

/-- The lowest line comes first. -/
theorem lowestLine?_eq_head? (b : UInt8) : lowestLine? b = (linesOf b).head? :=
  List.head?_filter.symm

/-- Clearing the bit of the lowest line leaves the others. -/
theorem linesOf_clear {b : UInt8} {line : Register} {rest : List Register}
    (h : linesOf b = line :: rest) : linesOf (b &&& ~~~ lineBit line) = rest := by
  have hlater : ∀ s ∈ rest, line < s := by
    have hpairwise := pairwise_linesOf b
    rw [h] at hpairwise
    exact (List.pairwise_cons.mp hpairwise).1
  have hcleared : linesOf (b &&& ~~~ lineBit line) = (linesOf b).filter (· ≠ line) := by
    rw [linesOf, linesOf, List.filter_filter]
    refine List.filter_congr fun s _ => ?_
    rw [hasLine_clear, Bool.and_comm]
  rw [hcleared, h, List.filter_cons_of_neg (by simp)]
  exact List.filter_eq_self.mpr fun s hs => decide_eq_true (Fin.ne_of_gt (hlater s hs))

/-- Bytes with the same lines are the same. -/
theorem eq_of_hasLine {a b : UInt8} (h : ∀ r, hasLine a r = hasLine b r) : a = b := by
  rw [← UInt8.toBitVec_inj]
  apply BitVec.eq_of_getLsbD_eq
  exact fun i hi => h ⟨i, hi⟩

theorem hasLine_not (b : UInt8) (r : Register) : hasLine (~~~ b) r = !hasLine b r := by
  simp [hasLine]

namespace Processor

variable {p q r : Processor}

/-! ## Going on where one was -/

/-- **`q` goes on where `p` was:** it differs at most in the byte fetched last, in the pending lines
    and in the nine bytes below the pointer. -/
structure Resumes (p q : Processor) : Prop where
  frame : q = { p with
    ir := q.ir
    registers := p.registers.set .status (q.registers.get .status)
    memory := q.memory }
  bounds : q.memory.start = p.memory.start ∧ q.memory.length = p.memory.length
  kept : ∀ a : Int, a < p.sp.toNat - 9 ∨ p.sp.toNat ≤ a → q.memory.get? a = p.memory.get? a

theorem Resumes.refl (p : Processor) : Resumes p p where
  frame := by rw [Registers.set_eq_self rfl]
  bounds := ⟨rfl, rfl⟩
  kept := fun _ _ => rfl

theorem Resumes.get_of_ne (h : Resumes p q) {s : Register} (hs : s ≠ .status) :
    q.registers.get s = p.registers.get s := by
  rw [h.frame]
  exact Registers.get_set_ne _ hs _

theorem Resumes.sp_eq (h : Resumes p q) : q.sp = p.sp := h.get_of_ne (by decide)

theorem Resumes.trans (h : Resumes p q) (h' : Resumes q r) : Resumes p r where
  frame := by
    have hframe := h'.frame
    rw [h.frame] at hframe
    simpa only [Registers.set_set] using hframe
  bounds := ⟨h'.bounds.1.trans h.bounds.1, h'.bounds.2.trans h.bounds.2⟩
  kept := by
    intro a ha
    rw [h'.kept a (by rwa [h.sp_eq]), h.kept a ha]

/-- Whoever returns from an interrupt finds all but its line and the bytes of the frame as they
    were. -/
theorem resumes_of_saved {bytes : List UInt8} {line : Register} (hlength : bytes.length = 9)
    (h : Saved bytes (p.acknowledged line) q) (hon : p.interruptsEnabled = true) :
    Resumes p { q with
      ir := 0x1a
      registers := (p.acknowledged line).registers
      pc := p.pc
      interruptsEnabled := true } where
  frame := by
    rw [h.frame, ← hon]
    simp only [acknowledged, registers_withRegister, Registers.get_set_self]
    rfl
  bounds := h.bounds
  kept := by
    have hsp := h.pointer
    rw [hlength, sp_acknowledged] at hsp
    intro a ha
    refine h.kept a ?_
    rw [sp_acknowledged]
    have hroom := h.room
    rw [hlength, sp_acknowledged] at hroom
    omega

theorem Resumes.pendingLines_eq (h : Resumes p q) :
    q.pendingLines = q.registers.get .status &&& p.registers.get .mask := by
  rw [pendingLines, h.get_of_ne (s := .mask) (by decide)]

end Processor

/-! ## A round -/

/-- **Interrupts can be entered, and the handlers of all pending lines return at once:** on a full
    block, with the standard table, room for a frame below the pointer and the pointer not above the
    vectors, every pending line's vector leads to a return that stands outside the frame. -/
structure Cpu.HandlersReturn (c : Cpu) (vector : Register → UInt8) : Prop where
  table : c.table = .standard
  full : c.processor.memory.Full
  running : c.processor.halted = false
  enabled : c.processor.interruptsEnabled = true
  pc : 0 ≤ c.processor.pc ∧ c.processor.pc ≤ 255
  sp : 9 ≤ c.processor.sp.toNat ∧ c.processor.sp.toNat ≤ 0xf8
  vectors : ∀ line, hasLine c.processor.pendingLines line = true →
    c.processor.memory.get? (Processor.vectorTable + (line : Nat)) = some (vector line)
  handlers : ∀ line, hasLine c.processor.pendingLines line = true →
    c.processor.memory.get? (vector line).toNat = some 0x1a
  apart : ∀ line, hasLine c.processor.pendingLines line = true →
    (vector line).toNat + 9 < c.processor.sp.toNat ∨ c.processor.sp.toNat ≤ (vector line).toNat

namespace Cpu

variable {c d : Cpu} {vector : Register → UInt8} {line : Register}

/-- Whoever goes on where the handlers returned at once finds them so, if no line has been added. -/
theorem HandlersReturn.of_resumes (h : c.HandlersReturn vector) (htable : d.table = c.table)
    (hresumes : c.processor.Resumes d.processor)
    (hpending : ∀ line, hasLine d.processor.pendingLines line = true →
      hasLine c.processor.pendingLines line = true) : d.HandlersReturn vector := by
  have hsp := hresumes.sp_eq
  have hroom := h.sp
  have hframe := hresumes.frame
  constructor
  · rw [htable, h.table]
  · exact ⟨hresumes.bounds.1.trans h.full.1, hresumes.bounds.2.trans h.full.2⟩
  · rw [hframe]
    exact h.running
  · rw [hframe]
    exact h.enabled
  · rw [hframe]
    exact h.pc
  · rw [hsp]
    exact hroom
  · intro line hline
    rw [hresumes.kept _ (.inr (by simp only [Processor.vectorTable]; omega))]
    exact h.vectors line (hpending line hline)
  · intro line hline
    have hapart := h.apart line (hpending line hline)
    rw [hresumes.kept _ (by omega)]
    exact h.handlers line (hpending line hline)
  · intro line hline
    rw [hsp]
    exact h.apart line (hpending line hline)

/-- The entry of a pending line leads to a return from the frame that the entry has left. -/
theorem HandlersReturn.exists_entry (h : c.HandlersReturn vector) (outlet : Outlet σ ε) (host : σ)
    (hline : lowestLine? c.processor.pendingLines = some line) {back : UInt8}
    (hback : (back.toNat : Int) = c.processor.pc) :
    ∃ q, c.tick outlet host = ⟨(c.entering line).withProcessor { q with pc := (vector line).toNat },
        host, [c.entryNotice line], none⟩ ∧
      Processor.Saved ([back] ++ Processor.savable.map (c.processor.acknowledged line).registers.get
        ++ [(c.processor.acknowledged line).sp - 9]) (c.processor.acknowledged line) q ∧
      q.memory.get? (vector line).toNat = some 0x1a := by
  have hpending := (lowestLine?_eq_some_iff.mp hline).1
  have hroom := h.sp
  have hapart := h.apart line hpending
  obtain ⟨q, target, hsaved, htarget, hq⟩ :=
    Processor.exists_saved_of_enterInterrupt line h.full hback hroom.1
  have hsp := hsaved.pointer
  rw [Processor.length_frame, Processor.sp_acknowledged] at hsp
  -- the frame leaves all other bytes, among them the vectors and the handlers
  have hkept (a : Int) (ha : a < c.processor.sp.toNat - 9 ∨ c.processor.sp.toNat ≤ a) :
      q.memory.get? a = c.processor.memory.get? a := by
    refine hsaved.kept a ?_
    rw [Processor.sp_acknowledged]
    omega
  have hvector : target = vector line := by
    rw [hkept _ (.inr (by simp only [Processor.vectorTable]; omega)), h.vectors line hpending]
      at htarget
    exact (Option.some.inj htarget).symm
  subst hvector
  refine ⟨q, ?_, hsaved, ?_⟩
  · exact tick_of_entered h.running ((Processor.nextLine?_of_enabled h.enabled).trans hline) hq
  · rw [hkept _ (by omega)]
    exact h.handlers line hpending

/-- **A round:** the entry of the lowest pending line, and the return from its handler. -/
theorem HandlersReturn.exists_round (h : c.HandlersReturn vector) (outlet : Outlet σ ε) (host : σ)
    (hline : lowestLine? c.processor.pendingLines = some line) :
    ∃ d e : Cpu, c.tick outlet host = ⟨d, host, [c.entryNotice line], none⟩ ∧ d.Executes .iret ∧
      d.tick outlet host =
        ⟨e, host, [.diagnostic (.fetched (vector line).toNat 0x1a "IRET")], none⟩ ∧
      c.processor.Resumes e.processor ∧
      e.processor.registers.get .status = c.processor.registers.get .status &&& ~~~ lineBit line ∧
      e.table = c.table ∧ e.fault = c.fault := by
  obtain ⟨back, hback⟩ : ∃ back : UInt8, (back.toNat : Int) = c.processor.pc := by
    refine ⟨UInt8.ofNat c.processor.pc.toNat, ?_⟩
    have hpc := h.pc
    rw [UInt8.toNat_ofNat']
    omega
  obtain ⟨q, hentry, hsaved, hhandler⟩ := h.exists_entry outlet host hline hback
  have hroom := h.sp
  have hsp := hsaved.pointer
  rw [Processor.length_frame, Processor.sp_acknowledged] at hsp
  -- the processor after the first tick, and what the second one makes of it
  generalize hd : (c.entering line).withProcessor { q with pc := (vector line).toNat } = d at hentry
  have hprocessor : d.processor = { q with pc := (vector line).toNat } := by
    rw [← hd, processor_withProcessor]
  have hrun : d.processor.halted = false := by
    rw [hprocessor, hsaved.frame]
    exact h.running
  have hoff : d.processor.interruptsEnabled = false := by
    rw [hprocessor, hsaved.frame]
    rfl
  have hbyte : d.processor.memory.get? d.processor.pc = some 0x1a := by
    rw [hprocessor]
    exact hhandler
  let iret : Instruction := ⟨0x1a, "IRET", 1, .iret, true, by decide, by decide⟩
  have htable : d.table.get 0x1a = some iret := by
    rw [← hd]
    show c.table.get 0x1a = _
    rw [h.table]
    rfl
  have hframe : Processor.Framed d.processor.memory (c.processor.acknowledged line).registers
      back := by
    rw [hprocessor]
    exact Processor.framed_of_saved (q := q) hsaved
  have hpointer : (c.processor.acknowledged line).registers.get .sp = c.processor.sp :=
    Processor.sp_acknowledged _ _
  have hreturn := tick_of_return outlet host hrun hoff hbyte htable rfl hframe
    (by rw [hpointer]; exact hroom.1) (by rw [hpointer, hprocessor]; exact hsp)
  rw [hback] at hreturn
  have hexecutes : d.Executes .iret := by
    refine ⟨hrun, Processor.nextLine?_eq_none_iff.mpr (.inl hoff), ?_⟩
    rw [instruction?_eq_some_iff.mpr ⟨0x1a, hbyte, htable⟩]
    rfl
  have hfetched : (d.fetching 0x1a iret.mnemonic).fetched iret =
      .diagnostic (.fetched (vector line).toNat 0x1a "IRET") := by
    rw [fetched, processor_fetching, hprocessor]
  rw [hfetched] at hreturn
  refine ⟨d, _, hentry, hexecutes, hreturn, ?_, Registers.get_set_self _ _ _, ?_, ?_⟩
  · rw [processor_withProcessor, hprocessor]
    exact Processor.resumes_of_saved (q := q) (Processor.length_frame ..) hsaved h.enabled
  · rw [← hd]
    rfl
  · rw [← hd]
    rfl

/-- What is told in a round. -/
def roundNotices (c : Cpu) (vector : Register → UInt8) (line : Register) : List Effect :=
  [.diagnostic (.entering line c.processor.pc c.processor.sp),
    .diagnostic (.fetched (vector line).toNat 0x1a "IRET")]

theorem roundNotices_congr (h : c.processor.Resumes d.processor) :
    d.roundNotices vector = c.roundNotices vector := by
  have hpc : d.processor.pc = c.processor.pc := by rw [h.frame]
  funext line
  rw [roundNotices, hpc, h.sp_eq, roundNotices]

end Cpu

namespace Rig

variable {outlet : Outlet σ ε} {rig mid after : Rig σ} {vector : Register → UInt8}
  {line : Register} {lines more : List Register}

/-- **The lines have been entered and returned from,** and nothing else has happened. -/
structure Drained (vector : Register → UInt8) (lines : List Register) (rig after : Rig σ) :
    Prop where
  resumes : rig.cpu.processor.Resumes after.cpu.processor
  status : ∀ k, hasLine (after.cpu.processor.registers.get .status) k = true ↔
    hasLine (rig.cpu.processor.registers.get .status) k = true ∧ k ∉ lines
  table : after.cpu.table = rig.cpu.table
  fault : after.cpu.fault = rig.cpu.fault
  host : after.host = rig.host
  effects : after.effects.toList =
    rig.effects.toList ++ lines.flatMap (rig.cpu.roundNotices vector)

theorem drained_nil (vector : Register → UInt8) (rig : Rig σ) : Drained vector [] rig rig where
  resumes := .refl _
  status := fun k => by simp
  table := rfl
  fault := rfl
  host := rfl
  effects := by simp

theorem Drained.trans (h : Drained vector lines rig mid) (h' : Drained vector more mid after) :
    Drained vector (lines ++ more) rig after where
  resumes := h.resumes.trans h'.resumes
  status := fun k => by
    rw [h'.status, h.status, List.mem_append, not_or, and_assoc]
  table := h'.table.trans h.table
  fault := h'.fault.trans h.fault
  host := h'.host.trans h.host
  effects := by
    rw [h'.effects, h.effects, Cpu.roundNotices_congr h.resumes, List.flatMap_append,
      List.append_assoc]

/-- **A round** enters the lowest pending line and returns from it at once. -/
theorem drained_of_round (outlet : Outlet σ ε) (h : rig.cpu.HandlersReturn vector)
    (hline : lowestLine? rig.cpu.processor.pendingLines = some line) :
    rig.cpu.Enters line ∧ (rig.tick outlet).cpu.Executes .iret ∧
      Drained vector [line] rig ((rig.tick outlet).tick outlet) := by
  obtain ⟨d, e, hentry, hexecutes, hreturn, hresumes, hstatus, htable, hfault⟩ :=
    h.exists_round outlet rig.host hline
  have hfirst : rig.tick outlet = ⟨d, rig.host, rig.effects ++ [rig.cpu.entryNotice line]⟩ := by
    rw [tick, hentry]
  have hsecond : (rig.tick outlet).tick outlet = ⟨e, rig.host,
      rig.effects ++ [rig.cpu.entryNotice line] ++
        [Effect.diagnostic (.fetched (vector line).toNat 0x1a "IRET")]⟩ := by
    rw [hfirst, tick, hreturn]
  refine ⟨⟨h.running, (Processor.nextLine?_of_enabled h.enabled).trans hline⟩, ?_, ?_⟩
  · rw [hfirst]
    exact hexecutes
  · rw [hsecond]
    refine ⟨hresumes, fun k => ?_, htable, hfault, rfl, by simp [Cpu.roundNotices, Cpu.entryNotice]⟩
    show hasLine (e.processor.registers.get .status) k = true ↔ _
    rw [hstatus, hasLine_clear, Bool.and_eq_true, decide_eq_true_eq, List.mem_singleton]

/-- **So many rounds as lines are pending:** by induction on their list, each round taking its first
    one. -/
theorem drained_of_rounds (outlet : Outlet σ ε) (h : rig.cpu.HandlersReturn vector)
    (hlines : linesOf rig.cpu.processor.pendingLines = lines) :
    (∀ k (hk : k < lines.length),
      (rig.run outlet (List.replicate (2 * k) .tick)).cpu.Enters lines[k] ∧
      (rig.run outlet (List.replicate (2 * k + 1) .tick)).cpu.Executes .iret) ∧
    Drained vector lines rig (rig.run outlet (List.replicate (2 * lines.length) .tick)) := by
  induction lines generalizing rig with
  | nil => exact ⟨fun k hk => absurd hk (Nat.not_lt_zero k), drained_nil vector rig⟩
  | cons line rest ih =>
    have hline : lowestLine? rig.cpu.processor.pendingLines = some line := by
      rw [lowestLine?_eq_head?, hlines, List.head?_cons]
    obtain ⟨henters, hexecutes, hround⟩ := drained_of_round outlet h hline
    generalize hmid : (rig.tick outlet).tick outlet = mid at hround
    have htwo (n : Nat) : rig.run outlet (List.replicate (n + 2) .tick) =
        mid.run outlet (List.replicate n .tick) := by
      rw [← hmid]
      rfl
    have hpending : mid.cpu.processor.pendingLines =
        rig.cpu.processor.pendingLines &&& ~~~ lineBit line := by
      refine eq_of_hasLine fun k => Bool.eq_iff_iff.mpr ?_
      rw [hround.resumes.pendingLines_eq, hasLine_and, hasLine_clear, Processor.pendingLines,
        hasLine_and, Bool.and_eq_true, hround.status, Bool.and_eq_true, Bool.and_eq_true,
        decide_eq_true_eq, List.mem_singleton]
      exact and_right_comm
    have hrest : linesOf mid.cpu.processor.pendingLines = rest := by
      rw [hpending, linesOf_clear hlines]
    have hmore : mid.cpu.HandlersReturn vector := by
      refine h.of_resumes hround.table hround.resumes fun k hk => ?_
      rw [hpending, hasLine_clear, Bool.and_eq_true] at hk
      exact hk.1
    obtain ⟨hturns, hdrained⟩ := ih hmore hrest
    refine ⟨fun k hk => ?_, ?_⟩
    · cases k with
      | zero => exact ⟨henters, hexecutes⟩
      | succ k =>
        rw [Nat.mul_succ, Nat.add_right_comm, htwo, htwo]
        exact hturns k (Nat.lt_of_succ_lt_succ hk)
    · rw [List.length_cons, Nat.mul_succ, htwo]
      exact hround.trans hdrained

/-- **All pending lines are drained before the program goes on.**  Where interrupts can be entered
    and the handlers of the pending lines return at once, the next ticks enter these lines in
    ascending order, each once, every entry being followed by its return.  Nothing else is executed
    and nothing is put out.  After that the processor is where it was: it differs at most in the byte
    fetched last, in the nine bytes below the pointer, and in the pending lines, of which exactly
    those that were not masked out have been taken, so that no interrupt is due. -/
theorem pending_lines_drain (outlet : Outlet σ ε) (rig : Rig σ) (vector : Register → UInt8)
    (h : rig.cpu.HandlersReturn vector) :
    let p := rig.cpu.processor
    let lines := linesOf p.pendingLines
    let after (n : Nat) : Rig σ := rig.run outlet (List.replicate n .tick)
    let last := after (2 * lines.length)
    (∀ line, line ∈ lines ↔ hasLine p.pendingLines line = true) ∧ lines.Pairwise (· < ·) ∧
    (∀ k (hk : k < lines.length),
      (after (2 * k)).cpu.Enters lines[k] ∧ (after (2 * k + 1)).cpu.Executes .iret) ∧
    last.effects.toList = rig.effects.toList ++ lines.flatMap (fun line =>
      [.diagnostic (.entering line p.pc p.sp),
        .diagnostic (.fetched (vector line).toNat 0x1a "IRET")]) ∧
    last.cpu.processor = { p with
      ir := last.cpu.processor.ir
      registers := p.registers.set .status (p.registers.get .status &&& ~~~ p.pendingLines)
      memory := last.cpu.processor.memory } ∧
    last.cpu.processor.memory.Full ∧
    (∀ a : Int, a < p.sp.toNat - 9 ∨ p.sp.toNat ≤ a →
      last.cpu.processor.memory.get? a = p.memory.get? a) ∧
    last.cpu.processor.nextLine? = none ∧
    last.cpu.fault = rig.cpu.fault ∧ last.cpu.table = rig.cpu.table ∧ last.host = rig.host := by
  intro p lines after last
  obtain ⟨hturns, hdrained⟩ := drained_of_rounds outlet h rfl
  have hdone : Drained vector lines rig last := hdrained
  have hstatus : last.cpu.processor.registers.get .status =
      p.registers.get .status &&& ~~~ p.pendingLines := by
    refine eq_of_hasLine fun k => Bool.eq_iff_iff.mpr ?_
    rw [hdone.status, hasLine_and, hasLine_not, mem_linesOf, Bool.and_eq_true, Bool.not_eq_true,
      Bool.not_eq_true']
  have hnone : last.cpu.processor.pendingLines = 0 := by
    refine eq_zero_iff_hasLine.mpr fun k => ?_
    rw [hdone.resumes.pendingLines_eq, hstatus, hasLine_and, hasLine_and, hasLine_not,
      Processor.pendingLines, hasLine_and]
    cases hasLine (p.registers.get .status) k <;> cases hasLine (p.registers.get .mask) k <;> rfl
  refine ⟨fun _ => mem_linesOf, pairwise_linesOf _, hturns, hdone.effects, ?_, ?_,
    hdone.resumes.kept, Processor.nextLine?_eq_none_iff.mpr (.inr hnone), hdone.fault, hdone.table,
    hdone.host⟩
  · rw [← hstatus]
    exact hdone.resumes.frame
  · exact ⟨hdone.resumes.bounds.1.trans h.full.1, hdone.resumes.bounds.2.trans h.full.2⟩

/-- Lines 1, 4 and 7 of five pending ones, the other two being masked out.  The frame ends where the
    vectors begin; the handler of line 4 stands right above it, the others at zero. -/
theorem pending_lines_drain_of_three_lines :
    let c : Cpu := { processor := {
      registers := ⟨#v[1, 2, 3, 4, 5, 0x92, 0xb3, 0xf8]⟩, pc := 0x41,
      memory := .holding (0x1a :: List.replicate 0xf7 0 ++ [0x1a, 0, 0, 0, 0xf8]) } }
    let outlet : Outlet Unit String := .silent Unit String
    let last := (Rig.mk c () #[]).run outlet (List.replicate 6 .tick)
    last.cpu.processor.pc = 0x41 ∧ last.cpu.processor.nextLine? = none ∧
      last.cpu.processor.registers = ⟨#v[1, 2, 3, 4, 5, 0x92, 0x21, 0xf8]⟩ := by
  intro c outlet last
  let vector : Register → UInt8 := fun line => if line = 4 then 0xf8 else 0
  have hreturn : c.HandlersReturn vector :=
    ⟨rfl, Memory.full_holding _, rfl, rfl, by decide, by decide, by decide +kernel,
      by decide +kernel, by decide +kernel⟩
  obtain ⟨_, _, _, _, hprocessor, _, _, hnone, _⟩ :=
    pending_lines_drain outlet (Rig.mk c () #[]) vector hreturn
  have hthree : (linesOf c.processor.pendingLines).length = 3 := by decide
  simp only [hthree] at hprocessor hnone
  have hlast : last.cpu.processor = _ := hprocessor
  refine ⟨?_, hnone, ?_⟩ <;> rw [hlast]
  decide

end Rig

end Ls8
