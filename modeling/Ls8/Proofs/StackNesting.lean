import Ls8.Proofs.StackRefinement
import Ls8.Proofs.TableRefinement

/-
  Pushes and pops nest.

  1. **Ticks that push, and ticks that pop** (`Cpu.Pushes`, `Cpu.Pops`).  A push of a register and a
     call are the same thing seen from the stack, and so are a pop into a register and a return.

  2. **Nesting** (`Nested`).  Between a push and the pop that belongs to it there may be any actions of
     a host that leave the stack alone, and any number of pushes with their pops, one inside the other
     to any depth.

  3. **The crux** is that the stack is left alone by all of it (`Nested.keeps`): the pointer comes back
     to where it was, and what stands from there on has not changed.  So the last pop finds the byte of
     the first push.  The pointer must not be popped into, since it is what finds the others.

  Main statement: `stack_refines_list`, which puts this together with the relation between the stack and
  a list.
-/

namespace Ls8

variable {σ ε : Type}

/-- **The stack is left alone:** the pointer is where it was, and so is all that stands from there on. -/
structure Processor.StackKept (p q : Processor) : Prop where
  pointer : q.sp = p.sp
  bytes : ∀ a : Int, p.sp.toNat ≤ a → q.memory.get? a = p.memory.get? a

namespace Processor.StackKept

variable {p q r : Processor}

theorem refl (p : Processor) : StackKept p p := ⟨rfl, fun _ _ => rfl⟩

theorem trans (h : StackKept p q) (h' : StackKept q r) : StackKept p r where
  pointer := h'.pointer.trans h.pointer
  bytes := fun a ha => (h'.bytes a (h.pointer ▸ ha)).trans (h.bytes a ha)

end Processor.StackKept

/-- What uses the stack puts out no text. -/
theorem Processor.Row.text_eq_none {p q : Processor} {op : Operation} {text : Option String}
    (h : Row p op q text) (hop : UsesStack op) : text = none := by
  cases h with
  | prn _ | pra _ => exact hop.elim
  | _ => rfl

/-! ## Ticks that push and ticks that pop -/

namespace Cpu

/-- **The next tick pushes a byte:** the value of a register, or the address behind a call. -/
inductive Pushes (c : Cpu) : UInt8 → Prop where
  | push {r : Register} (h : c.Executes .push) (hr : c.processor.Names 1 r) :
    Pushes c (c.processor.registers.get r)
  | call {b : UInt8} (h : c.Executes .call) (hb : (b.toNat : Int) = c.processor.pc + 2) : Pushes c b

/-- **The next tick pops a byte,** into a register other than the stack pointer, or into the program
    counter. -/
inductive Pops (c : Cpu) : Option Register → Prop where
  | pop {r : Register} (h : c.Executes .pop) (hr : c.processor.Names 1 r) (hne : r ≠ .sp) :
    Pops c (some r)
  | ret (h : c.Executes .ret) : Pops c none

variable {outlet : Outlet σ ε} {c : Cpu} {host : σ} {op : Operation}

/-- **A tick that uses the stack and does not halt** follows the row of its operation. -/
theorem Executes.exists_row (h : c.Executes op) (hop : Processor.UsesStack op)
    (hrun : (c.tick outlet host).cpu.processor.halted = false) :
    ∃ ir, Processor.Row { c.processor with ir := ir } op (c.tick outlet host).cpu.processor none := by
  obtain ⟨opcode, i, rfl, htick⟩ := h.tick_eq outlet host
  refine ⟨opcode, ?_⟩
  rw [htick] at hrun ⊢
  have hsilent {s : String} {width : Nat} {q : Processor} (hexec : Processor.execute i.operation
      (c.fetching opcode i.mnemonic).processor = .ok (.text s width) q) : False :=
    nomatch (Processor.row_of_execute hexec).text_eq_none hop
  revert hrun
  refine perform_cases ?_ ?_ ?_ ?_ ?_
  · intro f q _ hrun
    cases hrun
  · intro q hexec _
    rw [cpu_completed]
    exact Processor.row_of_execute hexec
  · exact fun _ _ _ _ _ hexec _ _ => (hsilent hexec).elim
  · exact fun _ _ _ _ _ _ hexec _ _ => (hsilent hexec).elim
  · exact fun _ _ _ _ _ _ hexec _ _ => (hsilent hexec).elim

/-- **What a push leaves:** its byte at the top, and what stands above it untouched. -/
theorem Pushes.tick {b : UInt8} (h : c.Pushes b)
    (hrun : (c.tick outlet host).cpu.processor.halted = false) :
    let q := (c.tick outlet host).cpu.processor
    q.sp.toNat + 1 = c.processor.sp.toNat ∧ q.memory.get? q.sp.toNat = some b ∧
      ∀ a : Int, c.processor.sp.toNat ≤ a → q.memory.get? a = c.processor.memory.get? a := by
  -- both store their byte one place below the pointer
  have hstored {q : Processor} {m : Memory} (hne : c.processor.sp ≠ 0)
      (hm : c.processor.memory.store (c.processor.sp - 1).toNat b = .ok m)
      (hq : q.sp = c.processor.sp - 1 ∧ q.memory = m) :
      q.sp.toNat + 1 = c.processor.sp.toNat ∧ q.memory.get? q.sp.toNat = some b ∧
        ∀ a : Int, c.processor.sp.toNat ≤ a → q.memory.get? a = c.processor.memory.get? a := by
    obtain ⟨hsp, rfl⟩ := hq
    have hlowered : q.sp.toNat + 1 = c.processor.sp.toNat := by
      have hpos : c.processor.sp.toNat ≠ 0 := fun h0 => hne (UInt8.toNat_inj.mp h0)
      rw [hsp, Processor.toNat_sub_one hne]
      omega
    refine ⟨hlowered, ?_, fun a ha => ?_⟩
    · rw [Memory.get?_store hm, hsp, if_pos rfl]
    · rw [Memory.get?_store hm, ← hsp, if_neg (by omega)]
  intro q
  cases h with
  | push hexec hr =>
    obtain ⟨ir, hrow⟩ := hexec.exists_row trivial hrun
    change Processor.Row _ _ q none at hrow
    clear_value q
    cases hrow with
    | push h1 hne hm =>
      obtain rfl := hr.unique h1
      exact hstored hne hm ⟨Registers.get_set_self _ _ _, rfl⟩
  | call hexec hb =>
    obtain ⟨ir, hrow⟩ := hexec.exists_row trivial hrun
    change Processor.Row _ _ q none at hrow
    clear_value q
    cases hrow with
    | call _ hne hb' hm =>
      obtain rfl := UInt8.toNat_inj.mp (Int.ofNat_inj.mp (hb.trans hb'.symm))
      exact hstored hne hm ⟨Registers.get_set_self _ _ _, rfl⟩

/-- The byte that a pop has delivered. -/
def Received (c : Cpu) (b : UInt8) : Option Register → Prop
  | some r => c.processor.registers.get r = b
  | none => c.processor.pc = b.toNat

/-- **What a pop leaves:** the byte at the top where it was wanted, and the pointer above it. -/
theorem Pops.tick {target : Option Register} {b : UInt8} (h : c.Pops target)
    (hne : c.processor.sp ≠ 0xff) (htop : c.processor.memory.get? c.processor.sp.toNat = some b)
    (outlet : Outlet σ ε) (host : σ) :
    let d := (c.tick outlet host).cpu
    d.Received b target ∧ d.processor.halted = false ∧ d.fault = c.fault ∧
      d.processor.sp = c.processor.sp + 1 ∧ d.processor.memory = c.processor.memory := by
  intro d
  cases h with
  | pop hexec hr hnot =>
    obtain ⟨ir, hq, hfault⟩ := hexec.tick_of_row (fun ir => .pop hr hnot htop hne) outlet host
    rename_i r
    refine ⟨?_, ?_, hfault, ?_, ?_⟩
    · show d.processor.registers.get r = b
      rw [hq, Registers.get_set_ne _ hnot, Registers.get_set_self]
    · rw [hq]
      exact hexec.1
    · rw [hq]
      exact Registers.get_set_self _ _ _
    · rw [hq]
  | ret hexec =>
    obtain ⟨ir, hq, hfault⟩ := hexec.tick_of_row (fun ir => .ret htop hne) outlet host
    refine ⟨?_, ?_, hfault, ?_, ?_⟩
    · show d.processor.pc = b.toNat
      rw [hq]
    · rw [hq]
      exact hexec.1
    · rw [hq]
      exact Registers.get_set_self _ _ _
    · rw [hq]

end Cpu

/-! ## Nesting -/

/-- **From one rig to a later one, pushes and pops are nested:** each push has its pop, and what happens
    in between is nested as well or leaves the stack alone. -/
inductive Nested (outlet : Outlet σ ε) : Rig σ → Rig σ → Prop where
  | nothing (rig : Rig σ) : Nested outlet rig rig
  /-- Any action of the host that leaves the stack alone. -/
  | other {rig later : Rig σ} (a : HostAction) (h : Nested outlet rig later)
      (hkept : later.cpu.processor.StackKept (later.act outlet a).cpu.processor) :
    Nested outlet rig (later.act outlet a)
  /-- A tick that pushes and does not fault, and the tick with the pop that belongs to it. -/
  | pair {rig later inner : Rig σ} {b : UInt8} {target : Option Register}
      (h : Nested outlet rig later) (hpush : later.cpu.Pushes b)
      (hrun : (later.tick outlet).cpu.processor.halted = false)
      (hinner : Nested outlet (later.tick outlet) inner) (hpop : inner.cpu.Pops target) :
    Nested outlet rig (inner.tick outlet)

namespace Nested

variable {outlet : Outlet σ ε} {rig later inner : Rig σ} {b : UInt8} {target : Option Register}

/-- **A pop finds the byte of its push,** if the stack has been left alone in between. -/
theorem delivers (hpush : rig.cpu.Pushes b)
    (hrun : (rig.tick outlet).cpu.processor.halted = false)
    (hkept : (rig.tick outlet).cpu.processor.StackKept inner.cpu.processor)
    (hpop : inner.cpu.Pops target) :
    let d := (inner.tick outlet).cpu
    d.Received b target ∧ d.processor.halted = false ∧ d.fault = inner.cpu.fault ∧
      rig.cpu.processor.StackKept d.processor := by
  obtain ⟨hlowered, htop, habove⟩ := hpush.tick hrun
  -- the pointer of the push is at most 255, so there is room to raise it again
  have hne : inner.cpu.processor.sp ≠ 0xff := by
    intro hlast
    have hlt := rig.cpu.processor.sp.toNat_lt
    rw [hkept.pointer] at hlast
    change (rig.cpu.tick outlet rig.host).cpu.processor.sp = 0xff at hlast
    rw [hlast] at hlowered
    simp at hlowered
    omega
  have hfound : inner.cpu.processor.memory.get? inner.cpu.processor.sp.toNat = some b := by
    rw [hkept.pointer, hkept.bytes _ (Int.le_refl _)]
    exact htop
  obtain ⟨hreceived, hhalted, hfault, hsp, hmemory⟩ := hpop.tick hne hfound outlet inner.host
  refine ⟨hreceived, hhalted, hfault, ?_, fun a ha => ?_⟩
  · -- the pointer is raised to where the push had found it
    show (inner.cpu.tick outlet inner.host).cpu.processor.sp = _
    rw [hsp, ← UInt8.toNat_inj, Processor.toNat_add_one hne, hkept.pointer]
    exact hlowered
  · have hbelow : (((rig.tick outlet).cpu.processor.sp.toNat : Nat) : Int) ≤ a := by
      change (((rig.cpu.tick outlet rig.host).cpu.processor.sp.toNat : Nat) : Int) ≤ a
      omega
    show (inner.cpu.tick outlet inner.host).cpu.processor.memory.get? a = _
    rw [hmemory, hkept.bytes a hbelow]
    exact habove a ha

/-- **Whatever is nested leaves the stack alone.** -/
theorem keeps (h : Nested outlet rig later) : rig.cpu.processor.StackKept later.cpu.processor := by
  induction h with
  | nothing rig => exact .refl _
  | other a _ hkept ih => exact ih.trans hkept
  | pair _ hpush hrun _ hpop ih ihinner => exact ih.trans (delivers hpush hrun ihinner hpop).2.2.2

end Nested

/-- **The stack is a list.**  Take a processor with a full memory and let it push bytes, registers and
    integers that are no bytes, and pop into registers other than the stack pointer and into the program
    counter, in any order, but never pop more than has been pushed.  Each access then does what it does
    to a list of bytes: a pop succeeds and delivers the byte that was pushed last of those still there, a
    push puts its byte in front or is refused and changes nothing.  All along the pointer is as far below
    its first value as the list is long, and what stood there and above has not changed.

    So whatever a push or a call has stored is what the pop or the return that belongs to it finds, with
    other pairs nested in between to any depth. -/
theorem stack_refines_list {p : Processor} {accesses : List StackAccess} (hfull : p.memory.Full)
    (hbalanced : p.Balanced 0 accesses) (outlet : Outlet σ ε) :
    (∀ before a after, accesses = before ++ a :: after →
      let m := (ListMachine.ofProcessor p).performAll p.sp.toNat before
      let q := p.performAll before
      Stacked p m q ∧
      (match m.perform p.sp.toNat a with
        | .ok m' => ∃ r, a.perform q = .ok () r ∧ Stacked p m' r
        | .error f => a.perform q = .error f q) ∧
      (a.isPop = true →
        ∃ b rest r, m.bytes = b :: rest ∧ a.perform q = .ok () r ∧ a.Delivered r b)) ∧
    Stacked p ((ListMachine.ofProcessor p).performAll p.sp.toNat accesses) (p.performAll accesses) ∧
    ∀ (rig inner : Rig σ) (b : UInt8) (target : Option Register), rig.cpu.Pushes b →
      (rig.tick outlet).cpu.processor.halted = false → Nested outlet (rig.tick outlet) inner →
      inner.cpu.Pops target →
      let d := (inner.tick outlet).cpu
      d.Received b target ∧ d.processor.halted = false ∧ d.fault = inner.cpu.fault ∧
        rig.cpu.processor.StackKept d.processor := by
  have hinitial := Stacked.initial hfull
  refine ⟨?_, ?_, ?_⟩
  · rintro before a after rfl
    obtain ⟨hstacked, hremains⟩ := hinitial.performAll hbalanced
    have hpop := Stacked.bytes_ne_nil hremains
    exact ⟨hstacked, hstacked.perform_agrees a hpop, fun ha => hstacked.delivers ha (hpop ha)⟩
  · have hall : p.Balanced 0 (accesses ++ []) := (List.append_nil accesses).symm ▸ hbalanced
    exact (hinitial.performAll hall).1
  · intro rig inner b target hpush hrun hnested hpop
    exact Nested.delivers hpush hrun hnested.keeps hpop

/-- A stack of three bytes, with a push of what is no byte and one too many; and a register that is
    saved around a subroutine, which saves one itself. -/
theorem stack_refines_list_of_subroutine :
    let p : Processor := { registers := ⟨#v[4, 5, 6, 0, 0, 0, 0, 3]⟩, memory := .full }
    let accesses : List StackAccess := [.push 300, .pushRegister 7, .pushRegister 1,
      .popInto 2 (by decide), .pushRegister 2, .push 9, .push 10, .popPc, .popInto 1 (by decide),
      .popInto 0 (by decide)]
    let rig : Rig Unit := {
      cpu := { processor := {
        registers := ⟨#v[7, 9, 0, 0, 0, 0, 0, 0xf8]⟩
        memory := .holding [0x0a, 0x00, 0x0f, 0x01, 0x0b, 0x02, 0x00, 0x00, 0x00,
          0x0a, 0x01, 0x0b, 0x03, 0x10] } }
      host := () }
    let inner := rig.run (.silent Unit String) [.tick, .tick, .tick, .tick, .tick]
    p.memory.Full ∧ p.Balanced 0 accesses ∧
      (∀ r : Register, r ≠ .sp →
        (p.performAll accesses).registers.get r =
          (Registers.mk #v[2, 5, 5, 0, 0, 0, 0, 0]).get r) ∧
      (p.performAll accesses).sp = 3 ∧
      (inner.tick (.silent Unit String)).cpu.Received 7 (some 2) := by
  intro p accesses rig inner
  have hfull : p.memory.Full := ⟨rfl, rfl⟩
  have hbalanced : p.Balanced 0 accesses := by decide +kernel
  obtain ⟨_, hall, hnest⟩ := stack_refines_list hfull hbalanced (.silent Unit String)
  have hempty : ((ListMachine.ofProcessor p).performAll p.sp.toNat accesses).bytes = [] := by
    decide +kernel
  have hvalues : ∀ r : Register, r ≠ .sp →
      ((ListMachine.ofProcessor p).performAll p.sp.toNat accesses).value r =
        (Registers.mk #v[2, 5, 5, 0, 0, 0, 0, 0]).get r := by decide +kernel
  have hsp := hall.sp_eq
  rw [hempty] at hsp
  -- the register is saved, the subroutine is called, saves another one and restores it, and returns
  let saved := rig.tick (.silent Unit String)
  let called := saved.tick (.silent Unit String)
  let restoring := called.tick (.silent Unit String)
  let returning := restoring.tick (.silent Unit String)
  have hsave : rig.cpu.Pushes (rig.cpu.processor.registers.get 0) :=
    .push (by decide +kernel) (Processor.named?_eq_some_iff.mp (by decide +kernel))
  have hcall : saved.cpu.Pushes 4 := .call (by decide +kernel) (by decide +kernel)
  have hsave' : called.cpu.Pushes (called.cpu.processor.registers.get 1) :=
    .push (by decide +kernel) (Processor.named?_eq_some_iff.mp (by decide +kernel))
  have hrestore' : restoring.cpu.Pops (some 3) :=
    .pop (by decide +kernel) (Processor.named?_eq_some_iff.mp (by decide +kernel)) (by decide)
  have hreturn : returning.cpu.Pops none := .ret (by decide +kernel)
  have hrestore : inner.cpu.Pops (some 2) :=
    .pop (by decide +kernel) (Processor.named?_eq_some_iff.mp (by decide +kernel)) (by decide)
  have hsub : Nested (.silent Unit String) called returning :=
    .pair (.nothing called) hsave' (by decide +kernel) (.nothing restoring) hrestore'
  have hbetween : Nested (.silent Unit String) saved inner :=
    .pair (.nothing saved) hcall (by decide +kernel) hsub hreturn
  refine ⟨hfull, hbalanced, fun r hr => (hall.value r hr).trans (hvalues r hr),
    UInt8.toNat_inj.mp hsp, ?_⟩
  exact (hnest rig inner _ (some 2) hsave (by decide +kernel) hbetween hrestore).1

end Ls8
