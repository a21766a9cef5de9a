import Ls8.Proofs.History
import Ls8.Proofs.StepFailure

/-
  The footprint of a run in memory.

  1. **Instructions.**  Three operations write to memory, each at most one byte: a store at the
     address in its first register, a push and a call at the address below the stack pointer
     (`Processor.Writes`).  Whatever else an operation does, and wherever it fails, memory stays.

  2. **Entries.**  The entry of an interrupt pushes nine bytes, one after the other, and may fault
     after any of them.  However far it gets, the pointer was lowered step by step from where it was,
     so all that was written lies in the nine bytes below that place (`PushedUpTo`).

  3. **Runs.**  Between ticks only a host that writes into memory changes it.  So a byte that a run
     changes was changed by one of its ticks first, and that tick may write there.

  Main statement: `memory_footprint`.
-/

namespace Ls8

variable {σ ε : Type}

namespace Processor

variable {α β : Type} {p q r : Processor} {n k : Nat}

/-! ## Pushes -/

/-- **At most `n` bytes were pushed:** the pointer was lowered by at most so much, and memory has
    changed between its two places only. -/
structure PushedUpTo (n : Nat) (p q : Processor) : Prop where
  lowered : q.sp.toNat ≤ p.sp.toNat ∧ p.sp.toNat ≤ q.sp.toNat + n
  kept : ∀ a : Int, a < q.sp.toNat ∨ p.sp.toNat ≤ a → q.memory.get? a = p.memory.get? a

namespace PushedUpTo

theorem of_eq (hsp : q.sp = p.sp) (hmemory : q.memory = p.memory) : PushedUpTo n p q where
  lowered := by rw [hsp]; omega
  kept := fun a _ => by rw [hmemory]

theorem mono (h : PushedUpTo n p q) (hnk : n ≤ k) : PushedUpTo k p q where
  lowered := by have := h.lowered; omega
  kept := h.kept

/-- Pushes one after the other. -/
theorem trans (h : PushedUpTo n p q) (h' : PushedUpTo k q r) : PushedUpTo (n + k) p r where
  lowered := by
    have := h.lowered
    have := h'.lowered
    omega
  kept := by
    intro a ha
    have := h.lowered
    have := h'.lowered
    rw [h'.kept a (by omega), h.kept a (by omega)]

/-- A step that pushes, and what follows if it succeeds. -/
theorem bind {x : Step α} {f : α → Step β} (hx : PushedUpTo n p (left (x p)))
    (hf : ∀ a q, PushedUpTo k q (left (f a q))) :
    PushedUpTo (n + k) p (left ((x >>= f) p)) := by
  cases h : x p with
  | error e q =>
    rw [h] at hx
    rw [bind_of_error h]
    exact hx.mono (Nat.le_add_right n k)
  | ok a q =>
    rw [h] at hx
    rw [bind_of_ok h]
    exact hx.trans (hf a q)

end PushedUpTo

/-- Lowering the pointer writes nothing. -/
theorem pushedUpTo_lowered (h : p.sp ≠ 0) : PushedUpTo 1 p (p.withRegister .sp (p.sp - 1)) where
  lowered := by
    rw [sp_withRegister_sp, toNat_sub_one h]
    omega
  kept := fun _ _ => rfl

/-- **A push writes below the pointer,** if it writes at all. -/
theorem pushedUpTo_pushByte (b : UInt8) (p : Processor) : PushedUpTo 1 p (left (pushByte b p)) := by
  cases h : pushByte b p with
  | error e q =>
    rcases pushByte_eq_error_iff.mp h with ⟨_, _, rfl⟩ | ⟨h0, _, _, rfl⟩
    · exact .of_eq rfl rfl
    · -- the pointer was lowered past the block
      exact pushedUpTo_lowered h0
  | ok u q =>
    obtain ⟨h0, m, hm, rfl⟩ := pushByte_eq_ok_iff.mp h
    have hlower := pushedUpTo_lowered h0
    refine ⟨hlower.lowered, fun a ha => ?_⟩
    have ha : a < (p.withRegister .sp (p.sp - 1)).sp.toNat ∨ p.sp.toNat ≤ a := ha
    have hpos : p.sp.toNat ≠ 0 := fun hzero => h0 (UInt8.toNat_inj.mp hzero)
    rw [sp_withRegister_sp, toNat_sub_one h0] at ha
    show m.get? a = _
    rw [Memory.get?_store hm, toNat_sub_one h0, if_neg (by omega)]

theorem pushedUpTo_push (value : Int) (p : Processor) : PushedUpTo 1 p (left (push value p)) := by
  rw [push]
  cases toByte? value with
  | some b => exact pushedUpTo_pushByte b p
  | none => exact .of_eq rfl rfl

theorem pushedUpTo_pushRegister (s : Register) (p : Processor) :
    PushedUpTo 1 p (left (pushRegister ((s : Nat) : Int) p)) := by
  rw [pushRegister_eq]
  exact pushedUpTo_pushByte _ p

/-- Saving registers pushes at most a byte for each. -/
theorem pushedUpTo_forM (rs : List Register) (p : Processor) :
    PushedUpTo rs.length p (left ((indices rs).forM pushRegister p)) := by
  induction rs generalizing p with
  | nil => exact .of_eq rfl rfl
  | cons s rs ih =>
    rw [List.length_cons, Nat.add_comm]
    exact (pushedUpTo_pushRegister s p).bind fun _ => ih

/-- **The entry of an interrupt** writes within the nine bytes below the pointer, however far it
    gets. -/
theorem pushedUpTo_enterInterrupt (line : Register) (p : Processor) :
    PushedUpTo 9 p (left (enterInterrupt line p)) := by
  have hread (a : Int) (p : Processor) :
      PushedUpTo 0 p (left ((readByte a >>= fun b => jump b.toNat) p)) := by
    rcases readByte_state (a := a) (p := p) with ⟨b, h⟩ | ⟨e, h⟩
    · rw [bind_of_ok h]
      exact .of_eq rfl rfl
    · rw [bind_of_error h]
      exact .of_eq rfl rfl
  have hsaved := pushedUpTo_forM (List.finRange 8)
  have hpushed := (pushedUpTo_push p.pc (p.acknowledged line)).bind fun _ q =>
    (hsaved q).bind fun _ => hread (vectorTable + (line : Nat))
  rw [enterInterrupt_eq]
  -- the acknowledgement before the first push touches neither the pointer nor memory
  have hfirst : PushedUpTo 0 p (p.acknowledged line) := .of_eq (sp_acknowledged p line) rfl
  exact hfirst.trans hpushed

/-! ## Instructions -/

/-- **The address to which an operation may write.** -/
inductive Writes (p : Processor) : Operation → Int → Prop where
  | st {s : Register} (h1 : p.Names 1 s) : Writes p .st (p.registers.get s).toNat
  | push : Writes p .push (p.sp.toNat - 1)
  | call : Writes p .call (p.sp.toNat - 1)

/-- Which byte was fetched last does not matter. -/
theorem Writes.withIr {op : Operation} {a : Int} {b : UInt8}
    (h : Writes { p with ir := b } op a) : p.Writes op a := by
  cases h with
  | st h1 => exact .st h1
  | push => exact .push
  | call => exact .call

/-- A row keeps memory, or it stores one byte where its operation may write. -/
theorem Row.memory_cases {op : Operation} {text : Option String} (h : Row p op q text) :
    q.memory = p.memory ∨ ∃ a b, p.Writes op a ∧ p.memory.store a b = .ok q.memory := by
  have hbelow (hsp : p.sp ≠ 0) : ((p.sp - 1).toNat : Int) = p.sp.toNat - 1 := by
    have hpos : p.sp.toNat ≠ 0 := fun hzero => hsp (UInt8.toNat_inj.mp hzero)
    rw [toNat_sub_one hsp]
    omega
  cases h with
  | push h1 hsp hm => exact .inr ⟨_, _, hbelow hsp ▸ .push, hm⟩
  | call h1 hsp hb hm => exact .inr ⟨_, _, hbelow hsp ▸ .call, hm⟩
  | st h1 h2 hm => exact .inr ⟨_, _, .st h1, hm⟩
  | _ => exact .inl rfl

/-- **An operation keeps memory, or it stores one byte** where it may write; one that fails keeps
    it. -/
theorem memory_execute (op : Operation) (p : Processor) :
    (left (execute op p)).memory = p.memory ∨
      ∃ a b, p.Writes op a ∧ p.memory.store a b = .ok (left (execute op p)).memory := by
  cases h : execute op p with
  | error e q =>
    have hmemory : q.memory = p.memory := by rw [(execute_error_frame h).1]
    exact .inl hmemory
  | ok out q =>
    have hrow := (row_of_execute h).memory_cases
    cases out <;> exact hrow

end Processor

/-! ## Ticks -/

namespace Cpu

variable {outlet : Outlet σ ε} {c : Cpu} {host : σ}

/-- **The addresses to which the next tick may write:** that of the operation it executes, or the
    nine below the stack pointer if it enters an interrupt. -/
inductive Writes (c : Cpu) (a : Int) : Prop where
  | executes {op : Operation} (h : c.Executes op) (ha : c.processor.Writes op a)
  | enters {line : Register} (h : c.Enters line)
    (ha : c.processor.sp.toNat - 9 ≤ a ∧ a ≤ c.processor.sp.toNat - 1)

/-- The memory that an instruction leaves is the one that its operation leaves: no hook of the host
    touches it. -/
theorem memory_perform (outlet : Outlet σ ε) (c : Cpu) (i : Instruction) (host : σ) :
    (c.perform outlet i host).cpu.processor.memory =
      (Processor.left (Processor.execute i.operation c.processor)).memory := by
  refine perform_cases ?_ ?_ ?_ ?_ ?_
  · intro f q h
    rw [Processor.left_of_error h]
    rfl
  · intro q h
    rw [Processor.left_of_ok h, cpu_completed]
    rfl
  -- the text is handed over before the processor moves on
  · intro s width q r effects h hserve
    have hframe := congrArg Processor.memory (Processor.serve_frame (outlet.deliver host s).2 q)
    rw [hserve] at hframe
    rw [Processor.left_of_ok h, cpu_completed]
    exact hframe
  · intro s width q r effects f h hserve
    have hframe := congrArg Processor.memory (Processor.serve_frame (outlet.deliver host s).2 q)
    rw [hserve] at hframe
    rw [Processor.left_of_ok h]
    exact hframe
  · intro s width q r effects reason h hserve
    have hframe := congrArg Processor.memory (Processor.serve_frame (outlet.deliver host s).2 q)
    rw [hserve] at hframe
    rw [Processor.left_of_ok h]
    exact hframe

/-- **What a tick does to memory:** nothing, or it executes an operation that stores one byte, or it
    enters an interrupt and changes bytes among the nine below the stack pointer. -/
theorem memory_tick (outlet : Outlet σ ε) (c : Cpu) (host : σ) :
    (c.tick outlet host).cpu.processor.memory = c.processor.memory ∨
    (∃ op a b, c.Executes op ∧ c.processor.Writes op a ∧
      c.processor.memory.store a b = .ok (c.tick outlet host).cpu.processor.memory) ∨
    ∃ line, c.Enters line ∧
      ∀ a : Int, ¬ (c.processor.sp.toNat - 9 ≤ a ∧ a ≤ c.processor.sp.toNat - 1) →
        (c.tick outlet host).cpu.processor.memory.get? a = c.processor.memory.get? a := by
  have entry {line : Register} {q : Processor}
      (hq : Processor.left (Processor.enterInterrupt line c.processor) = q) (a : Int)
      (ha : ¬ (c.processor.sp.toNat - 9 ≤ a ∧ a ≤ c.processor.sp.toNat - 1)) :
      q.memory.get? a = c.processor.memory.get? a := by
    have hpushed := Processor.pushedUpTo_enterInterrupt line c.processor
    rw [hq] at hpushed
    have hlowered := hpushed.lowered
    exact hpushed.kept a (by omega)
  refine tick_cases ?_ ?_ ?_ ?_ ?_ ?_
  · exact fun _ => .inl rfl
  · intro line q hrun hline hq
    exact .inr (.inr ⟨line, ⟨hrun, hline⟩, entry (Processor.left_of_ok hq)⟩)
  · intro line f q hrun hline hq
    exact .inr (.inr ⟨line, ⟨hrun, hline⟩, entry (q := q) (Processor.left_of_error hq)⟩)
  · exact fun _ _ _ => .inl rfl
  · exact fun _ _ _ _ _ => .inl rfl
  · intro opcode i hrun hidle hbyte hentry
    have hi : c.instruction? = some i := instruction?_eq_some_iff.mpr ⟨opcode, hbyte, hentry⟩
    have hexec : c.Executes i.operation := ⟨hrun, hidle, by rw [hi]; rfl⟩
    rw [memory_perform]
    rcases Processor.memory_execute i.operation (c.fetching opcode i.mnemonic).processor with
      hsame | ⟨a, b, ha, hstore⟩
    · exact .inl hsame
    · exact .inr (.inl ⟨i.operation, a, b, hexec, ha.withIr, hstore⟩)

/-- A tick changes a byte only where it may write. -/
theorem writes_of_tick {a : Int}
    (h : (c.tick outlet host).cpu.processor.memory.get? a ≠ c.processor.memory.get? a) :
    c.Writes a := by
  rcases memory_tick outlet c host with hsame | ⟨op, a', b, hexec, ha', hstore⟩ | ⟨line, hline, hkept⟩
  · exact absurd (by rw [hsame]) h
  · rw [Memory.get?_store hstore] at h
    split at h
    · rename_i he
      exact .executes hexec (he ▸ ha')
    · exact absurd rfl h
  · exact .enters hline (Classical.byContradiction fun ha => h (hkept a ha))

/-- A tick that executes an operation changes one byte at most, and none if the operation is neither
    a store nor a push nor a call. -/
theorem memory_tick_of_executes (outlet : Outlet σ ε) (host : σ) {op : Operation}
    (hexec : c.Executes op) :
    (c.tick outlet host).cpu.processor.memory = c.processor.memory ∨
      op ∈ [.st, .push, .call] ∧
      ∃ a b, c.processor.memory.store a b = .ok (c.tick outlet host).cpu.processor.memory := by
  rcases memory_tick outlet c host with hsame | ⟨op', a, b, hexec', ha, hstore⟩ | ⟨line, hline, _⟩
  · exact .inl hsame
  · obtain rfl : op' = op := Option.some.inj (hexec'.2.2.symm.trans hexec.2.2)
    refine .inr ⟨?_, a, b, hstore⟩
    cases ha <;> decide
  · exact nomatch hline.2.symm.trans hexec.2.1

end Cpu

/-! ## Runs -/

namespace Rig

variable {outlet : Outlet σ ε} {rig : Rig σ}

/-- Between ticks only a host that writes into memory changes it. -/
theorem memory_act_of_ne {action : HostAction} (htick : action ≠ .tick)
    (hpoke : ∀ a v, action ≠ .poke a v) :
    (rig.act outlet action).cpu.processor.memory = rig.cpu.processor.memory := by
  cases action with
  | tick => exact absurd rfl htick
  | poke a v => exact absurd rfl (hpoke a v)
  | timer => rfl
  | setSp v => rfl
  | raise n =>
    rw [act, Cpu.raise]
    cases hraise : rig.cpu.processor.raise n with
    | error e => rfl
    | ok q =>
      obtain ⟨k, _, rfl⟩ := Processor.raise_eq_ok_iff.mp hraise
      rfl
  | setRegister i v =>
    rw [act]
    cases hset : Processor.setRegister i (UInt8.ofInt v) rig.cpu.processor with
    | error e q => rfl
    | ok u q =>
      obtain ⟨s, _, rfl⟩ := Processor.setRegister_eq_ok_iff.mp hset
      rfl

/-- **The footprint of a run in memory.**  Let a host do whatever it wants but write into memory
    itself.  A byte differs between the beginning and the end of the run only if some tick of the run
    executed a store with that address in its first register, executed a push or a call with the
    stack pointer one above it, or began to enter an interrupt with it among the nine bytes below the
    stack pointer; the tick may have faulted midway.

    An instruction by itself changes one byte at most, and only a store, a push or a call changes
    any. -/
theorem memory_footprint (outlet : Outlet σ ε) :
    (∀ (rig : Rig σ) (actions : List HostAction), (∀ a v, .poke a v ∉ actions) → ∀ a,
      (rig.run outlet actions).cpu.processor.memory.get? a ≠ rig.cpu.processor.memory.get? a →
      ∃ before after, actions = before ++ .tick :: after ∧ (rig.run outlet before).cpu.Writes a) ∧
    ∀ (c : Cpu) (host : σ) (op : Operation), c.Executes op →
      (∃ a₀, ∀ a, a ≠ a₀ →
        (c.tick outlet host).cpu.processor.memory.get? a = c.processor.memory.get? a) ∧
      (op ∉ [.st, .push, .call] →
        (c.tick outlet host).cpu.processor.memory = c.processor.memory) := by
  constructor
  · intro rig actions hpoke a hchanged
    -- take the first action that changes the byte
    let P (later : Rig σ) : Prop :=
      later.cpu.processor.memory.get? a ≠ rig.cpu.processor.memory.get? a
    have hstart : ¬ P rig := fun h => h rfl
    obtain ⟨before, action, after, hactions, hbefore, hthen⟩ := exists_first hstart actions hchanged
    have hsame : (rig.run outlet before).cpu.processor.memory.get? a =
        rig.cpu.processor.memory.get? a := Classical.not_not.mp (hbefore before List.prefix_rfl)
    have hstep : ((rig.run outlet before).act outlet action).cpu.processor.memory.get? a ≠
        (rig.run outlet before).cpu.processor.memory.get? a := by
      rw [hsame]
      exact hthen
    have htick : action = .tick := by
      refine Classical.byContradiction fun hne => hstep ?_
      rw [memory_act_of_ne hne fun a v he => hpoke a v (by simp [hactions, he])]
    subst htick
    exact ⟨before, after, hactions, Cpu.writes_of_tick hstep⟩
  · intro c host op hexec
    rcases Cpu.memory_tick_of_executes outlet host hexec with hsame | ⟨hop, a₀, b, hstore⟩
    · exact ⟨⟨0, fun a _ => by rw [hsame]⟩, fun _ => hsame⟩
    · refine ⟨⟨a₀, fun a ha => ?_⟩, fun hother => absurd hop hother⟩
      rw [Memory.get?_store hstore, if_neg ha]

/-- An entry that faults after three of its nine bytes, and a pop that stores nothing. -/
theorem memory_footprint_of_faulting_entry :
    let outlet : Outlet Unit String := .silent Unit String
    let p : Processor := {
      registers := ⟨#v[0, 0, 0, 0, 0, 1, 0, 3]⟩, pc := 7, memory := .holding [0x0b, 0x01] }
    let rig : Rig Unit := { cpu := { processor := p }, host := () }
    let popping : Cpu := { processor := { p with pc := 0 } }
    let actions : List HostAction := [.raise 0, .setRegister 0 9, .tick]
    (rig.run outlet actions).cpu.fault = some (.stack .overflow) ∧
    (rig.run outlet actions).cpu.processor.memory.get? 2 = some 7 ∧
    (∃ before after, actions = before ++ .tick :: after ∧ (rig.run outlet before).cpu.Writes 2) ∧
    (popping.tick outlet ()).cpu.processor.memory = p.memory := by
  intro outlet p rig popping actions
  obtain ⟨hruns, hticks⟩ := memory_footprint outlet
  have hpoke (a v : Int) : .poke a v ∉ actions := by simp [actions]
  have hpop := hticks popping () .pop (by decide +kernel)
  exact ⟨by decide +kernel, by decide +kernel, hruns rig actions hpoke 2 (by decide +kernel),
    hpop.2 (by decide)⟩

end Rig

end Ls8
