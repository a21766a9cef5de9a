import Mathlib.Logic.Function.Basic
import Ls8.Proofs.Stopping
import Ls8.Proofs.TickOutput

/-
  Registers compute with integers, modulo 256.

  1. **Shadows.**  Beside each register stands an integer without a bound, which is assigned, added and
     multiplied whenever an instruction does that to registers (`Cpu.shadowed`).  What the instruction is,
     and which registers it names, is read from the machine: only its bytes steer a program, so shadow
     and register take the same course through any loop.

  2. **The relation** (`Registers.Residues`) says that each register is its shadow modulo 256.  The
     arithmetic unit reduces its result, and that the operands have been reduced before makes no
     difference (`exact_emod`).  Nothing is lost if an instruction names one register twice, since the
     shadows are read before any is set.

  3. **Computing** (`Rig.Computes`).  A tick that faults, enters an interrupt, or moves bytes to or from
     the stack, has no shadow; nor has a line that the host requests, since that is a bit of a register.
     Writing into memory is no obstacle, for the program and for the host.

  Main statement: `registers_are_residues`.
-/

namespace Ls8

variable {σ ε : Type}

/-- **An operation on residues** has the residue of the operation. -/
theorem AluOperation.exact_emod (op : AluOperation) (a b n : Int) :
    op.exact (a % n) (b % n) % n = op.exact a b % n := by
  cases op with
  | add => exact (Int.add_emod a b n).symm
  | mul => exact (Int.mul_emod a b n).symm

/-- **Each register is an integer modulo 256.** -/
def Registers.Residues (rs : Registers) (s : Register → Int) : Prop :=
  ∀ r, ((rs.get r).toNat : Int) = s r % 256

/-- Setting a register and its integer. -/
theorem Registers.Residues.update {rs : Registers} {s : Register → Int} (h : rs.Residues s)
    (r : Register) {b : UInt8} {x : Int} (hb : (b.toNat : Int) = x % 256) :
    (rs.set r b).Residues (Function.update s r x) := by
  intro t
  rw [get_set, Function.update_apply]
  split
  · exact hb
  · exact h t

/-- A register is its own value modulo 256. -/
theorem Registers.residues_self (rs : Registers) :
    rs.Residues fun r => ((rs.get r).toNat : Int) := by
  intro r
  have := (rs.get r).toNat_lt
  show ((rs.get r).toNat : Int) = (rs.get r).toNat % 256
  omega

namespace Processor

variable {p q : Processor} {op : Operation} {text : Option String} {s : Register → Int}

/-- The shadows after an operation of the arithmetic unit: exact, and on shadows. -/
def combined (p : Processor) (s : Register → Int) (op : AluOperation) : Register → Int :=
  match p.named? 1, p.named? 2 with
  | some r, some t => Function.update s r (op.exact (s r) (s t))
  | _, _ => s

/-- **The shadows after an operation.** -/
def shadowed (p : Processor) (s : Register → Int) : Operation → Register → Int
  | .ldi =>
    match p.named? 1, p.memory.get? (p.pc + 2) with
    | some r, some b => Function.update s r b.toNat
    | _, _ => s
  | .add => p.combined s .add
  | .mul => p.combined s .mul
  | _ => s

/-- The arithmetic unit computes with residues. -/
theorem residues_combined (op : AluOperation) {r t : Register} (h1 : p.Names 1 r)
    (h2 : p.Names 2 t) (hs : p.registers.Residues s) :
    (p.registers.set r (op.apply (p.registers.get r) (p.registers.get t))).Residues
      (p.combined s op) := by
  rw [combined, named?_eq_some_iff.mpr h1, named?_eq_some_iff.mpr h2]
  refine hs.update r ?_
  rw [op.toNat_apply, hs r, hs t, op.exact_emod]

/-- **An operation that does not use the stack** keeps registers and shadows together. -/
theorem Row.residues (h : Row p op q text) (hop : ¬ UsesStack op) (hs : p.registers.Residues s) :
    q.registers.Residues (p.shadowed s op) := by
  cases h with
  | push _ _ _ | pop _ _ _ _ | popSp _ _ _ | call _ _ _ _ | ret _ _ | iret _ _ _ _ _ =>
    exact absurd trivial hop
  | add h1 h2 => exact residues_combined .add h1 h2 hs
  | mul h1 h2 => exact residues_combined .mul h1 h2 hs
  | @ldi r b h1 h2 =>
    have hb : p.memory.get? (p.pc + 2) = some b := h2
    rw [shadowed, named?_eq_some_iff.mpr h1, hb]
    refine hs.update r ?_
    have := b.toNat_lt
    omega
  | _ => exact hs

/-- Serving requests that come to no line leaves the processor. -/
theorem serve_of_unasked {requests : List (Request ε)}
    (h : ∀ line, ¬ Request.Reached (.raise line) requests) (p : Processor) :
    (p.serve requests).1 = p := by
  induction requests with
  | nil => rfl
  | cons request rest ih =>
    cases request with
    | stopClock => exact ih fun line hline => h line (.later trivial hline)
    | raise line => exact absurd (.first rest) (h line)
    | fault f => rfl
    | fail reason => rfl

end Processor

/-! ## Ticks -/

namespace Cpu

variable {outlet : Outlet σ ε} {c : Cpu} {host : σ} {s : Register → Int}

/-- **The shadows after the next tick.** -/
def shadowed (c : Cpu) (s : Register → Int) : Register → Int :=
  match c.operation? with
  | some op => c.processor.shadowed s op
  | none => s

/-- **The next tick only computes:** it does not fault, enters no interrupt and does not use the stack,
    and the host requests no line while it takes a text. -/
structure Undisturbed (outlet : Outlet σ ε) (c : Cpu) (host : σ) : Prop where
  faultless : ∀ text, .report text ∉ (c.tick outlet host).effects
  noEntry : ∀ line, ¬ c.Enters line
  noStack : ∀ op, c.Executes op → ¬ Processor.UsesStack op
  unasked : ∀ text line, .output text ∈ (c.tick outlet host).effects →
    ¬ Request.Reached (.raise line) (outlet.deliver host text).2

/-- With a host that asks for nothing it can be checked whether a tick only computes. -/
theorem undisturbed_silent_iff : c.Undisturbed (.silent σ ε) host ↔
    (c.tick (.silent σ ε) host).effects.filterMap Effect.report? = [] ∧
      (c.processor.halted = true ∨ c.processor.nextLine? = none) ∧
      ∀ op ∈ c.operation?, op ∉ [Operation.push, .pop, .call, .ret, .iret] := by
  have hreports (effects : List Effect) :
      effects.filterMap Effect.report? = [] ↔ ∀ text, .report text ∉ effects := by
    rw [List.filterMap_eq_nil_iff]
    constructor
    · exact fun h text htext => nomatch h _ htext
    · intro h e he
      cases e with
      | report text => exact absurd he (h text)
      | _ => rfl
  have hidle : (c.processor.halted = true ∨ c.processor.nextLine? = none) ↔
      ∀ line, ¬ c.Enters line := by
    simp only [Enters]
    cases c.processor.halted <;> simp [Option.eq_none_iff_forall_ne_some]
  have hstack (op : Operation) :
      op ∉ [Operation.push, .pop, .call, .ret, .iret] ↔ ¬ Processor.UsesStack op := by
    cases op <;> simp [Processor.UsesStack]
  simp only [hreports, hidle, hstack, Option.mem_def, operation?_eq_some_iff]
  constructor
  · exact fun ⟨hfaultless, hentry, hnot, _⟩ => ⟨hfaultless, hentry, hnot⟩
  · exact fun ⟨hfaultless, hentry, hnot⟩ => ⟨hfaultless, hentry, hnot, fun _ _ _ h => nomatch h⟩

instance : Decidable (c.Undisturbed (.silent σ ε) host) :=
  decidable_of_iff _ undisturbed_silent_iff.symm

/-- **The step:** a tick that only computes keeps registers and shadows together. -/
theorem Undisturbed.residues (h : c.Undisturbed outlet host) (hs : c.processor.registers.Residues s) :
    (c.tick outlet host).cpu.processor.registers.Residues (c.shadowed s) := by
  obtain ⟨hfaultless, hentry, hstack, hunasked⟩ := h
  revert hfaultless hunasked
  refine tick_cases ?_ ?_ ?_ ?_ ?_ ?_
  · intro hhalted _ _
    rw [shadowed, operation?, if_pos hhalted]
    exact hs
  · exact fun line q hrun hline _ _ _ => absurd ⟨hrun, hline⟩ (hentry line)
  · exact fun line f q hrun hline _ _ _ => absurd ⟨hrun, hline⟩ (hentry line)
  · exact fun _ _ _ hfaultless _ => absurd (report_mem_faulted _ _) (hfaultless _)
  · exact fun opcode _ _ _ _ hfaultless _ => absurd (report_mem_faulted _ _) (hfaultless _)
  · intro opcode i hrun hidle hbyte hentry
    have hi : c.instruction? = some i := instruction?_eq_some_iff.mpr ⟨opcode, hbyte, hentry⟩
    have hexec : c.Executes i.operation := ⟨hrun, hidle, by rw [hi]; rfl⟩
    have hnot := hstack i.operation hexec
    -- a host that requests no line leaves the processor as the instruction left it
    have hserved {text : String} {q r : Processor} {effects : List Effect} {ending : Ending ε}
        (hserve : q.serve (outlet.deliver host text).2 = (r, effects, ending))
        (hlines : ∀ line, ¬ Request.Reached (.raise line) (outlet.deliver host text).2) : r = q := by
      have hkept := Processor.serve_of_unasked hlines q
      rwa [hserve] at hkept
    rw [shadowed, operation?_eq_some_iff.mpr hexec]
    refine perform_cases ?_ ?_ ?_ ?_ ?_
    · exact fun f q _ hfaultless _ => absurd (report_mem_faulted _ f) (hfaultless _)
    · intro q h _ _
      rw [cpu_completed]
      exact (Processor.row_of_execute h).residues hnot hs
    · intro text width q r effects h hserve _ hunasked
      have hr : r = q :=
        hserved hserve fun line => hunasked text line (output_mem_completed.mpr (by simp))
      rw [cpu_completed, hr]
      exact (Processor.row_of_execute h).residues hnot hs
    · exact fun text width q r effects f _ _ hfaultless _ =>
        absurd (report_mem_faulted _ f) (hfaultless _)
    · intro text width q r effects reason h hserve _ hunasked
      have hr : r = q := hserved hserve fun line => hunasked text line (by simp)
      rw [hr]
      exact (Processor.row_of_execute h).residues hnot hs

/-- **A print** that does not fault names its register. -/
theorem Undisturbed.exists_named (h : c.Undisturbed outlet host) (hexec : c.Executes .prn) :
    ∃ r, c.processor.Names 1 r := by
  obtain ⟨opcode, i, hop, htick⟩ := hexec.tick_eq outlet host
  have hfaultless := h.faultless
  rw [htick] at hfaultless
  rcases hdone : Processor.execute i.operation (c.fetching opcode i.mnemonic).processor with
    ⟨out, q⟩ | ⟨f, q⟩
  · have hrow := Processor.row_of_execute hdone
    rw [hop] at hrow
    generalize out.land q = q' at hrow
    generalize out.text? = text at hrow
    cases hrow with
    | prn h1 => exact ⟨_, h1⟩
  · rw [perform_of_error hdone] at hfaultless
    exact absurd (report_mem_faulted _ f) (hfaultless _)

end Cpu

/-! ## Runs -/

namespace Rig

variable {outlet : Outlet σ ε} {rig : Rig σ} {s : Register → Int}

/-- **A history that only computes:** ticks that do, between which the host may write into memory. -/
inductive Computes (outlet : Outlet σ ε) : Rig σ → List HostAction → Prop where
  | nothing (rig : Rig σ) : Computes outlet rig []
  | tick {rig : Rig σ} {rest : List HostAction} (h : rig.cpu.Undisturbed outlet rig.host)
      (hrest : Computes outlet (rig.act outlet .tick) rest) : Computes outlet rig (.tick :: rest)
  | poke {rig : Rig σ} {rest : List HostAction} (a value : Int)
      (hrest : Computes outlet (rig.act outlet (.poke a value)) rest) :
    Computes outlet rig (.poke a value :: rest)

/-- Ticks one after the other compute if each of them does. -/
theorem computes_ticks (n : Nat) (h : ∀ k < n,
    (rig.run outlet (List.replicate k .tick)).cpu.Undisturbed outlet
      (rig.run outlet (List.replicate k .tick)).host) :
    Computes outlet rig (List.replicate n .tick) := by
  induction n generalizing rig with
  | zero => exact .nothing rig
  | succ n ih =>
    exact .tick (h 0 (Nat.succ_pos n)) (ih fun k hk => h (k + 1) (Nat.succ_lt_succ hk))

/-- **The shadows after a history.** -/
def shadows (outlet : Outlet σ ε) (rig : Rig σ) (s : Register → Int) :
    List HostAction → Register → Int
  | [] => s
  | .tick :: rest => (rig.act outlet .tick).shadows outlet (rig.cpu.shadowed s) rest
  | a :: rest => (rig.act outlet a).shadows outlet s rest

/-- A part of a history computes, and so does what comes after it. -/
theorem Computes.append {before rest : List HostAction}
    (h : Computes outlet rig (before ++ rest)) :
    Computes outlet rig before ∧ Computes outlet (rig.run outlet before) rest := by
  induction before generalizing rig with
  | nil => exact ⟨.nothing rig, h⟩
  | cons a before ih =>
    cases h with
    | tick htick hrest => exact ⟨.tick htick (ih hrest).1, (ih hrest).2⟩
    | poke x v hrest => exact ⟨.poke x v (ih hrest).1, (ih hrest).2⟩

/-- **The run:** a history that only computes keeps registers and shadows together. -/
theorem Computes.residues {actions : List HostAction} (h : Computes outlet rig actions)
    (hs : rig.cpu.processor.registers.Residues s) :
    (rig.run outlet actions).cpu.processor.registers.Residues (rig.shadows outlet s actions) := by
  induction h generalizing s with
  | nothing rig => exact hs
  | tick htick _ ih => exact ih (htick.residues hs)
  | @poke rig rest a value _ ih =>
    refine ih (s := s) ?_
    have hkept : (rig.act outlet (.poke a value)).cpu.processor.registers =
        rig.cpu.processor.registers := by
      rw [act, Cpu.poke]
      cases rig.cpu.processor.memory.write a value <;> rfl
    rwa [hkept]

end Rig

/-- **Registers are integers modulo 256.**  Start anywhere, and let a program compute for any number of
    ticks, with any loops, while shadows of its registers, without a bound, follow its assignments, sums
    and products.  After each tick every register is its shadow modulo 256; and each print puts out the
    decimal text of the shadow of its register modulo 256. -/
theorem registers_are_residues {outlet : Outlet σ ε} {rig : Rig σ} {actions : List HostAction}
    (h : rig.Computes outlet actions) :
    let start := fun r => ((rig.cpu.processor.registers.get r).toNat : Int)
    (∀ before, before <+: actions → ∀ r,
      (((rig.run outlet before).cpu.processor.registers.get r).toNat : Int) =
        rig.shadows outlet start before r % 256) ∧
    ∀ before after, actions = before ++ .tick :: after →
      let found := rig.run outlet before
      found.cpu.Executes .prn → ∃ r, found.cpu.processor.Names 1 r ∧
        (found.cpu.tick outlet found.host).effects.filterMap Effect.output? =
          [Text.decimal (rig.shadows outlet start before r % 256)] := by
  intro start
  have hstart : rig.cpu.processor.registers.Residues start := Registers.residues_self _
  refine ⟨?_, ?_⟩
  · rintro before ⟨rest, rfl⟩
    exact h.append.1.residues hstart
  · rintro before after rfl found hexec
    have hresidues := h.append.1.residues hstart
    cases h.append.2 with
    | tick htick _ =>
      obtain ⟨r, h1⟩ := htick.exists_named hexec
      refine ⟨r, h1, ?_⟩
      rw [Cpu.texts_tick, Cpu.text?, Cpu.operation?_eq_some_iff.mpr hexec, ← hresidues r]
      show (Processor.text? _ .prn).toList = _
      rw [Processor.text?, Processor.named?_eq_some_iff.mpr h1]
      rfl

/-- A loop that adds and multiplies, and whose second pass adds another register, since the first one has
    changed its instruction. -/
theorem registers_are_residues_of_loop :
    let rig : Rig Unit := {
      cpu := { processor := {
        registers := ⟨#v[100, 5, 2, 1, 0, 0, 0, 0xf8]⟩
        memory := .holding
          [0x0c, 0x00, 0x00, 0x05, 0x01, 0x00, 0x06, 0x01, 0x09, 0x02, 0x03, 0x11, 0x04] } }
      host := () }
    let found := rig.run (.silent Unit String) (List.replicate 7 .tick)
    rig.Computes (.silent Unit String) (List.replicate 8 .tick) ∧
      rig.shadows (.silent Unit String) (fun r => (rig.cpu.processor.registers.get r).toNat)
        (List.replicate 7 .tick) 1 = 1200000 ∧
      found.cpu.processor.registers.get 1 = 128 ∧
      (found.cpu.tick (.silent Unit String) found.host).effects.filterMap Effect.output? = ["128"] := by
  intro rig found
  have hcomputes : rig.Computes (.silent Unit String) (List.replicate 8 .tick) :=
    Rig.computes_ticks 8 (by decide +kernel)
  obtain ⟨hregisters, hprints⟩ := registers_are_residues hcomputes
  have hshadow : rig.shadows (.silent Unit String)
      (fun r => (rig.cpu.processor.registers.get r).toNat) (List.replicate 7 .tick) 1 = 1200000 := by
    decide +kernel
  refine ⟨hcomputes, hshadow, ?_, ?_⟩
  · have hvalue := hregisters (List.replicate 7 .tick) ⟨[.tick], rfl⟩ 1
    rw [hshadow] at hvalue
    exact UInt8.toNat_inj.mp (Int.ofNat_inj.mp hvalue)
  · obtain ⟨r, hr, htexts⟩ := hprints (List.replicate 7 .tick) [] rfl (by decide +kernel)
    have hone : found.cpu.processor.Names 1 1 := Processor.named?_eq_some_iff.mp (by decide +kernel)
    rw [hr.unique hone, hshadow] at htexts
    exact htexts.trans (by decide +kernel)

end Ls8
