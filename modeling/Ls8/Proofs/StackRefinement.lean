import Mathlib.Data.List.Infix
import Mathlib.Logic.Function.Basic
import Ls8.Proofs.StackFrame
import Ls8.Proofs.StepFailure

/-
  The stack in memory is a list.

  1. **The list machine** (`ListMachine`) has no stack pointer.  It has a list of bytes, the last one
     pushed first, the registers that a pop may write, and a program counter.  Its list may be as long
     as the stack pointer was high at the beginning.

  2. **The relation** (`Stacked`).  A processor follows a list machine if the list stands in memory from
     the stack pointer on, ends where the pointer was at the beginning, and nothing else has changed.
     Pushing and popping one byte keep it (`Stacked.push`, `Stacked.drop`); the bytes above the list are
     never touched, since the pointer only comes back to where it was when the list is empty.

  3. **The crux** is the stack pointer itself, which is a register as well.  A push of it stores a value
     that depends on the length of the list (`Stacked.pushed`), and a push that fails must not have
     moved it.

  Main statements: an access does to the processor what it does to the list machine
  (`Stacked.perform_agrees`), and so does any sequence of accesses that never pops more than it has
  pushed (`Stacked.performAll`).
-/

namespace Ls8

/-- **An access to the stack.**  The stack pointer is not popped into. -/
inductive StackAccess where
  | push (value : Int)
  | pushRegister (r : Register)
  | popInto (r : Register) (hr : r ≠ .sp)
  | popPc

namespace StackAccess

/-- Whether an access takes a byte from the stack. -/
def isPop : StackAccess → Bool
  | .popInto .. | .popPc => true
  | .push _ | .pushRegister _ => false

/-- **What an access does to a processor.** -/
def perform : StackAccess → Step Unit
  | .push value => Processor.push value
  | .pushRegister r => Processor.pushRegister (r : Nat)
  | .popInto r _ => Processor.popInto (r : Nat)
  | .popPc => Processor.popPc

/-- The byte that a pop has delivered, into a register or into the program counter. -/
def Delivered (p : Processor) (b : UInt8) : StackAccess → Prop
  | .popInto r _ => p.registers.get r = b
  | .popPc => p.pc = b.toNat
  | .push _ | .pushRegister _ => False

end StackAccess

/-! ## The list machine -/

/-- **A machine with a list for a stack.** -/
structure ListMachine where
  /-- The bytes on the stack, the last one pushed first. -/
  bytes : List UInt8 := []
  /-- The registers; the stack pointer is not among those that count. -/
  value : Register → UInt8
  pc : Int

namespace ListMachine

/-- The list machine of a processor before its first access. -/
def ofProcessor (p : Processor) : ListMachine := { value := p.registers.get, pc := p.pc }

/-- Pushes a byte, if the list is not as long as it may be. -/
def push (limit : Nat) (m : ListMachine) (b : UInt8) : Except Fault ListMachine :=
  if m.bytes.length = limit then .error (.stack .overflow) else .ok { m with bytes := b :: m.bytes }

/-- What a push of a register stores.  The stack pointer has been lowered by one for each byte on the
    list, and once more for this one. -/
def pushed (limit : Nat) (m : ListMachine) (r : Register) : UInt8 :=
  if r = .sp then UInt8.ofNat (limit - m.bytes.length - 1) else m.value r

/-- **What an access does to a list machine.** -/
def perform (limit : Nat) (m : ListMachine) : StackAccess → Except Fault ListMachine
  | .push value =>
    match toByte? value with
    | some b => m.push limit b
    | none => .error (.operand (.stackValue value))
  | .pushRegister r => m.push limit (m.pushed limit r)
  | .popInto r _ =>
    match m.bytes with
    | [] => .error (.stack .underflow)
    | b :: rest => .ok { m with bytes := rest, value := Function.update m.value r b }
  | .popPc =>
    match m.bytes with
    | [] => .error (.stack .underflow)
    | b :: rest => .ok { m with bytes := rest, pc := b.toNat }

end ListMachine

/-! ## The relation -/

/-- **A processor `q` with the list of `m` on its stack,** where there was none in `p`. -/
structure Stacked (p : Processor) (m : ListMachine) (q : Processor) : Prop where
  pointer : q.sp.toNat + m.bytes.length = p.sp.toNat
  stored : ∀ k (h : k < m.bytes.length), q.memory.get? (q.sp.toNat + k) = some m.bytes[k]
  above : ∀ a : Int, p.sp.toNat ≤ a → q.memory.get? a = p.memory.get? a
  full : q.memory.Full
  value : ∀ r, r ≠ .sp → q.registers.get r = m.value r
  frame : q = { p with registers := q.registers, pc := m.pc, memory := q.memory }

namespace Stacked

variable {p q r : Processor} {m : ListMachine}

/-- Before the first access there is nothing on the stack. -/
theorem initial (hp : p.memory.Full) : Stacked p (.ofProcessor p) p where
  pointer := rfl
  stored := fun k h => absurd h (Nat.not_lt_zero k)
  above := fun _ _ => rfl
  full := hp
  value := fun _ _ => rfl
  frame := rfl

/-- There is no room for one more byte exactly if the pointer is zero. -/
theorem length_eq_iff (h : Stacked p m q) : m.bytes.length = p.sp.toNat ↔ q.sp = 0 := by
  have hpointer := h.pointer
  rw [← UInt8.toNat_inj]
  show _ ↔ q.sp.toNat = 0
  omega

/-- The pointer is where the list begins. -/
theorem sp_eq (h : Stacked p m q) : q.sp.toNat = p.sp.toNat - m.bytes.length := by
  have hpointer := h.pointer
  omega

/-- **A pushed byte stands first.** -/
theorem push {b : UInt8} (h : Stacked p m q) (hsaved : Processor.Saved [b] q r) :
    Stacked p { m with bytes := b :: m.bytes } r := by
  have hpointer := h.pointer
  have hroom : 1 ≤ q.sp.toNat := hsaved.room
  have hlowered : r.sp.toNat = q.sp.toNat - 1 := hsaved.pointer
  constructor
  · show r.sp.toNat + (m.bytes.length + 1) = p.sp.toNat
    omega
  · rintro (_ | k) hk
    · have htop := hsaved.stored 0 Nat.one_pos
      rw [show ((r.sp.toNat : Int) + (0 : Nat)) = q.sp.toNat - 1 - (0 : Nat) by omega, htop]
      rfl
    · have hold := h.stored k (by simpa using hk)
      rw [show ((r.sp.toNat : Int) + (k + 1 : Nat)) = q.sp.toNat + k by omega,
        hsaved.kept _ (by omega), hold]
      rfl
  · intro a ha
    rw [hsaved.kept a (by omega), h.above a ha]
  · exact hsaved.full h.full
  · intro s hs
    rw [hsaved.registers_of_ne hs, h.value s hs]
  · have hframe := hsaved.frame
    rw [h.frame] at hframe
    rw [hframe]

/-- **What is left without the first byte,** once the pointer has been raised. -/
theorem drop {b : UInt8} {rest : List UInt8} (h : Stacked p m q) (hbytes : m.bytes = b :: rest) :
    q.sp ≠ 0xff ∧ q.memory.get? q.sp.toNat = some b ∧
      Stacked p { m with bytes := rest } (q.withRegister .sp (q.sp + 1)) := by
  have hpointer := h.pointer
  rw [hbytes, List.length_cons] at hpointer
  have hne : q.sp ≠ 0xff := by
    have hp := p.sp.toNat_lt
    intro hlast
    rw [hlast] at hpointer
    simp at hpointer
    omega
  have hraised : (q.withRegister .sp (q.sp + 1)).sp.toNat = q.sp.toNat + 1 := by
    rw [Processor.sp_withRegister_sp, Processor.toNat_add_one hne]
  refine ⟨hne, ?_, ?_⟩
  · have htop := h.stored 0 (by rw [hbytes]; exact Nat.succ_pos _)
    simpa [hbytes] using htop
  · constructor
    · rw [hraised]
      show _ + rest.length = _
      omega
    · intro k hk
      have hnext := h.stored (k + 1) (by rw [hbytes]; exact Nat.succ_lt_succ hk)
      rw [hraised, show (((q.sp.toNat + 1 : Nat) : Int) + k) = q.sp.toNat + (k + 1 : Nat) by omega]
      simpa [hbytes] using hnext
    · exact h.above
    · exact h.full
    · intro s hs
      rw [Processor.registers_withRegister, Registers.get_set_ne _ hs]
      exact h.value s hs
    · rw [h.frame]
      rfl

/-- What a push of a register stores. -/
theorem pushed (h : Stacked p m q) (hne : q.sp ≠ 0) (s : Register) :
    (q.withRegister .sp (q.sp - 1)).registers.get s = m.pushed p.sp.toNat s := by
  rw [Processor.registers_withRegister, Registers.get_set, ListMachine.pushed]
  split
  · have hpointer := h.pointer
    have hlt := p.sp.toNat_lt
    rw [← UInt8.toNat_inj, Processor.toNat_sub_one hne, UInt8.toNat_ofNat']
    omega
  · rename_i hs
    exact h.value s hs

/-- A register that a pop may write is set in both. -/
theorem withRegister {s : Register} (hs : s ≠ .sp) (b : UInt8) (h : Stacked p m q) :
    Stacked p { m with value := Function.update m.value s b } (q.withRegister s b) := by
  have hsp : (q.withRegister s b).sp = q.sp := Processor.sp_withRegister_of_ne hs b
  constructor
  · rw [hsp]
    exact h.pointer
  · rw [hsp]
    exact h.stored
  · exact h.above
  · exact h.full
  · intro t ht
    show (q.registers.set s b).get t = Function.update m.value s b t
    rw [Registers.get_set, Function.update_apply, h.value t ht]
  · rw [h.frame]
    rfl

/-- The program counter is set in both. -/
theorem withPc (a : Int) (h : Stacked p m q) :
    Stacked p { m with pc := a } { q with pc := a } where
  pointer := h.pointer
  stored := h.stored
  above := h.above
  full := h.full
  value := h.value
  frame := by rw [h.frame]

/-! ## One access -/

/-- A push of a byte, if there is room. -/
theorem pushByte_agrees (h : Stacked p m q) (b : UInt8) :
    match m.push p.sp.toNat b with
    | .ok m' => ∃ r, Processor.pushByte b q = .ok () r ∧ Stacked p m' r
    | .error f => Processor.pushByte b q = .error f q := by
  by_cases h0 : q.sp = 0
  · rw [ListMachine.push, if_pos (h.length_eq_iff.mpr h0)]
    exact Processor.pushByte_eq_error_iff.mpr (.inl ⟨h0, rfl, rfl⟩)
  · rw [ListMachine.push, if_neg fun hlength => h0 (h.length_eq_iff.mp hlength)]
    obtain ⟨r, hpush, hsaved⟩ := Processor.exists_pushByte h.full h0 b
    exact ⟨r, hpush, h.push hsaved⟩

/-- **One access does to the processor what it does to the list machine,** unless it pops from an
    empty list.  If it is refused, nothing is changed. -/
theorem perform_agrees (h : Stacked p m q) (a : StackAccess)
    (hpop : a.isPop = true → m.bytes ≠ []) :
    match m.perform p.sp.toNat a with
    | .ok m' => ∃ r, a.perform q = .ok () r ∧ Stacked p m' r
    | .error f => a.perform q = .error f q := by
  cases a with
  | push value =>
    rw [ListMachine.perform, StackAccess.perform, Processor.push]
    cases toByte? value with
    | none => exact rfl
    | some b => exact h.pushByte_agrees b
  | pushRegister s =>
    have hagrees := h.pushByte_agrees (m.pushed p.sp.toNat s)
    rw [ListMachine.perform, StackAccess.perform, Processor.pushRegister_eq]
    by_cases h0 : q.sp = 0
    · -- without room the value does not matter
      rw [ListMachine.push, if_pos (h.length_eq_iff.mpr h0)]
      exact Processor.pushByte_eq_error_iff.mpr (.inl ⟨h0, rfl, rfl⟩)
    · rw [h.pushed h0 s]
      exact hagrees
  | popInto s hs =>
    obtain ⟨b, rest, hbytes⟩ := List.exists_cons_of_ne_nil (hpop rfl)
    obtain ⟨hne, htop, _⟩ := h.drop hbytes
    -- the pointer is raised after the destination is written
    obtain ⟨_, _, hrest⟩ := (h.withRegister hs b).drop hbytes
    rw [Processor.sp_withRegister_of_ne hs] at hrest
    simp only [ListMachine.perform, hbytes]
    exact ⟨_, (Processor.popInto_eq_ok_iff_of_ne hs).mpr ⟨hne, b, htop, rfl⟩, hrest⟩
  | popPc =>
    obtain ⟨b, rest, hbytes⟩ := List.exists_cons_of_ne_nil (hpop rfl)
    obtain ⟨hne, htop, hrest⟩ := h.drop hbytes
    simp only [ListMachine.perform, hbytes]
    exact ⟨_, Processor.popPc_eq_ok_iff.mpr ⟨hne, b, htop, rfl⟩, hrest.withPc b.toNat⟩

end Stacked

/-! ## Any sequence of accesses -/

/-- **One access after the other.**  One that fails is left behind as it is. -/
def Processor.performAll (p : Processor) (accesses : List StackAccess) : Processor :=
  accesses.foldl (fun q a => Processor.left (a.perform q)) p

/-- The same on a list machine; an access that fails changes nothing. -/
def ListMachine.performAll (limit : Nat) (m : ListMachine) (accesses : List StackAccess) :
    ListMachine :=
  accesses.foldl (fun m a => (m.perform limit a).toOption.getD m) m

/-- How many bytes an access pushes: one, if it is a push and succeeds. -/
def StackAccess.pushCount (a : StackAccess) (p : Processor) : Nat :=
  match a.isPop, a.perform p with
  | false, .ok .. => 1
  | _, _ => 0

/-- How many bytes a sequence of accesses pushes. -/
def Processor.pushCount (p : Processor) : List StackAccess → Nat
  | [] => 0
  | a :: rest => a.pushCount p + (Processor.left (a.perform p)).pushCount rest

/-- **No part of the sequence pops more than has been pushed,** where `depth` bytes are on the stack
    at the beginning. -/
def Processor.Balanced (depth : Nat) (p : Processor) (accesses : List StackAccess) : Prop :=
  ∀ before, before <+: accesses →
    before.countP StackAccess.isPop ≤ depth + p.pushCount before

instance (depth : Nat) (p : Processor) (accesses : List StackAccess) :
    Decidable (p.Balanced depth accesses) :=
  decidable_of_iff (∀ before ∈ accesses.inits,
      before.countP StackAccess.isPop ≤ depth + p.pushCount before) (by
    simp only [List.mem_inits]
    rfl)

/-- How an access changes the length of the list. -/
theorem ListMachine.length_of_perform {limit : Nat} {m m' : ListMachine} {a : StackAccess}
    (h : m.perform limit a = .ok m') :
    m'.bytes.length + a.isPop.toNat = m.bytes.length + (!a.isPop).toNat := by
  have hpush {b : UInt8} (h : m.push limit b = .ok m') : m'.bytes.length = m.bytes.length + 1 := by
    rw [push] at h
    split at h
    · cases h
    · cases h
      rfl
  cases a with
  | push value =>
    rw [perform] at h
    split at h
    · exact hpush h
    · cases h
  | pushRegister s => exact hpush h
  | popInto s hs =>
    rw [perform] at h
    split at h
    · cases h
    · rename_i hbytes
      cases h
      rw [hbytes]
      rfl
  | popPc =>
    rw [perform] at h
    split at h
    · cases h
    · rename_i hbytes
      cases h
      rw [hbytes]
      rfl

namespace Stacked

variable {p q : Processor} {m : ListMachine}

/-- A sequence that starts with a pop finds something to pop. -/
theorem bytes_ne_nil {a : StackAccess} {rest : List StackAccess}
    (hbalanced : q.Balanced m.bytes.length (a :: rest)) (ha : a.isPop = true) : m.bytes ≠ [] := by
  have hfirst := hbalanced [a] (by simp)
  have hnone : q.pushCount [a] = 0 := by
    simp [Processor.pushCount, StackAccess.pushCount, ha]
  rw [List.countP_singleton, if_pos ha, hnone] at hfirst
  exact List.ne_nil_of_length_pos (by omega)

/-- **A pop delivers the first byte,** if there is one. -/
theorem delivers {a : StackAccess} (h : Stacked p m q) (ha : a.isPop = true)
    (hne : m.bytes ≠ []) :
    ∃ b rest r, m.bytes = b :: rest ∧ a.perform q = .ok () r ∧ a.Delivered r b := by
  obtain ⟨b, rest, hbytes⟩ := List.exists_cons_of_ne_nil hne
  obtain ⟨hlast, htop, _⟩ := h.drop hbytes
  cases a with
  | push value => cases ha
  | pushRegister s => cases ha
  | popInto s hs =>
    refine ⟨b, rest, _, hbytes, (Processor.popInto_eq_ok_iff_of_ne hs).mpr ⟨hlast, b, htop, rfl⟩, ?_⟩
    show ((q.registers.set s b).set .sp (q.sp + 1)).get s = b
    rw [Registers.get_set_ne _ hs, Registers.get_set_self]
  | popPc => exact ⟨b, rest, _, hbytes, Processor.popPc_eq_ok_iff.mpr ⟨hlast, b, htop, rfl⟩, rfl⟩

/-- **The step:** one access of a balanced sequence keeps the relation, and the rest is balanced. -/
theorem step {a : StackAccess} {rest : List StackAccess} (h : Stacked p m q)
    (hbalanced : q.Balanced m.bytes.length (a :: rest)) :
    let m' := m.performAll p.sp.toNat [a]
    let q' := q.performAll [a]
    Stacked p m' q' ∧ q'.Balanced m'.bytes.length rest := by
  have hagrees := h.perform_agrees a (bytes_ne_nil hbalanced)
  -- what the first access pushes and pops is accounted for in the length of the list
  have hrest {q' : Processor} {n : Nat} (hq' : Processor.left (a.perform q) = q')
      (hn : n + a.isPop.toNat = m.bytes.length + a.pushCount q) : q'.Balanced n rest := by
    intro before hbefore
    have hall := hbalanced (a :: before) (List.prefix_cons_inj a |>.mpr hbefore)
    rw [Processor.pushCount, hq', List.countP_cons] at hall
    cases ha : a.isPop <;> simp [ha] at hall hn <;> omega
  cases hperform : m.perform p.sp.toNat a with
  | ok m' =>
    rw [hperform] at hagrees
    obtain ⟨r, hr, hstacked⟩ := hagrees
    have hm : m.performAll p.sp.toNat [a] = m' := by
      simp [ListMachine.performAll, hperform, Except.toOption]
    have hq : q.performAll [a] = r := Processor.left_of_ok hr
    simp only [hm, hq]
    refine ⟨hstacked, hrest (Processor.left_of_ok hr) ?_⟩
    rw [ListMachine.length_of_perform hperform, StackAccess.pushCount, hr]
    cases a.isPop <;> rfl
  | error f =>
    rw [hperform] at hagrees
    have hm : m.performAll p.sp.toNat [a] = m := by
      simp [ListMachine.performAll, hperform, Except.toOption]
    have hq : q.performAll [a] = q := Processor.left_of_error hagrees
    simp only [hm, hq]
    refine ⟨h, hrest (Processor.left_of_error hagrees) ?_⟩
    have hpush : a.isPop = false := by
      by_contra hpop
      have ha : a.isPop = true := by simpa using hpop
      obtain ⟨_, _, r, _, hr, _⟩ := h.delivers ha (bytes_ne_nil hbalanced ha)
      rw [hr] at hagrees
      cases hagrees
    rw [StackAccess.pushCount, hagrees, hpush]
    rfl

/-- **The run:** a balanced sequence keeps the relation, and what remains of it stays balanced. -/
theorem performAll {before rest : List StackAccess} (h : Stacked p m q)
    (hbalanced : q.Balanced m.bytes.length (before ++ rest)) :
    let m' := m.performAll p.sp.toNat before
    let q' := q.performAll before
    Stacked p m' q' ∧ q'.Balanced m'.bytes.length rest := by
  induction before generalizing m q with
  | nil => exact ⟨h, hbalanced⟩
  | cons a before ih =>
    obtain ⟨hstacked, hremains⟩ := h.step hbalanced
    exact ih hstacked hremains

end Stacked

end Ls8
