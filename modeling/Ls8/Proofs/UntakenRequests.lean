import Ls8.Proofs.History
import Ls8.Proofs.StatusBlind

/-
  Requests that are not taken.

  As long as every tick finds the processor inert — halted, or with no interrupt that could be
  entered whatever is pending, and before an instruction that does not read the pending lines — a
  run does not depend on what is requested between its ticks.  Two runs with the same ticks stay
  alike: the processors differ at most in the pending lines, and so does everything that was done to
  the outside (`run_alike`).

  That a tick finds the processor inert is itself not a matter of the pending lines
  (`Alike.inert_iff`), so it is enough to know it of one of the two runs.

  What the host does with a text may change the host; the two runs need not have the same host, as
  long as their hosts answer the same (`Outlet.Respects`).
-/

namespace Ls8

variable {σ ε : Type}

/-! ## Serving requests -/

namespace Processor

variable {p q : Processor}

theorem Alike.withPending (h : p.Alike q) (a b : Register) :
    (p.withPending a).Alike (q.withPending b) :=
  ((alike_withStatus p _).symm.trans h).trans (alike_withStatus q _)

/-- Serving requests does the same to processors that are alike. -/
theorem serve_alike (h : p.Alike q) (requests : List (Request ε)) :
    (p.serve requests).1.Alike (q.serve requests).1 ∧
      (q.serve requests).2 = (p.serve requests).2 := by
  induction requests generalizing p q with
  | nil => exact ⟨h, rfl⟩
  | cons request rest ih =>
    cases request with
    | fault f => exact ⟨h, rfl⟩
    | fail reason => exact ⟨h, rfl⟩
    | stopClock =>
      obtain ⟨hq, hsame⟩ := ih h
      refine ⟨hq, ?_⟩
      simp only [serve, hsame]
    | raise line =>
      rw [serve, serve, raise, raise]
      cases register? line with
      | none => exact ⟨h, rfl⟩
      | some r => exact ih (h.withPending r r)

end Processor

/-! ## Ticks -/

/-- **Hosts that answer the same** stay so, whatever text they take. -/
def Outlet.Respects (outlet : Outlet σ ε) (R : σ → σ → Prop) : Prop :=
  ∀ s t text, R s t → R (outlet.deliver s text).1 (outlet.deliver t text).1 ∧
    (outlet.deliver t text).2 = (outlet.deliver s text).2

theorem Outlet.respects_eq (outlet : Outlet σ ε) : outlet.Respects Eq := by
  rintro s _ text rfl
  exact ⟨rfl, rfl⟩

/-- Processors whose runs so far differ at most in the pending lines.  What their traces have
    recorded is left aside. -/
structure Cpu.Alike (c d : Cpu) : Prop where
  processor : c.processor.Alike d.processor
  table : d.table = c.table
  fault : d.fault = c.fault
  ticks : d.ticks = c.ticks

/-- Turns that differ at most in the pending lines. -/
structure Turn.Alike (R : σ → σ → Prop) (t u : Turn σ ε) : Prop where
  cpu : t.cpu.Alike u.cpu
  host : R t.host u.host
  effects : u.effects = t.effects
  failure : u.failure = t.failure

namespace Cpu

variable {outlet : Outlet σ ε} {R : σ → σ → Prop} {c d e : Cpu} {host peer : σ}

theorem Alike.refl (c : Cpu) : c.Alike c := ⟨.refl _, rfl, rfl, rfl⟩

theorem Alike.symm (h : c.Alike d) : d.Alike c :=
  ⟨h.processor.symm, h.table.symm, h.fault.symm, h.ticks.symm⟩

theorem Alike.trans (h : c.Alike d) (h' : d.Alike e) : c.Alike e :=
  ⟨h.processor.trans h'.processor, h'.table.trans h.table, h'.fault.trans h.fault,
    h'.ticks.trans h.ticks⟩

/-- One more pending line. -/
theorem alike_withPending (c : Cpu) (line : Register) :
    c.Alike (c.withProcessor (c.processor.withPending line)) :=
  ⟨Processor.alike_withStatus c.processor _, rfl, rfl, rfl⟩

theorem Alike.withProcessor (h : c.Alike d) {p q : Processor} (hp : p.Alike q) :
    (c.withProcessor p).Alike (d.withProcessor q) :=
  ⟨hp, h.table, h.fault, h.ticks⟩

theorem Alike.counted (h : c.Alike d) : c.counted.Alike d.counted :=
  ⟨h.processor, h.table, h.fault, congrArg (· + 1) h.ticks⟩

theorem Alike.fetching (h : c.Alike d) (opcode : UInt8) (mnemonic : String) :
    (c.fetching opcode mnemonic).Alike (d.fetching opcode mnemonic) := by
  refine ⟨?_, h.table, h.fault, congrArg (· + 1) h.ticks⟩
  obtain ⟨rs, hrs, hd⟩ := h.processor
  rw [processor_fetching, processor_fetching, hd]
  exact ⟨rs, hrs, rfl⟩

/-- **A processor that no pending line can disturb** at its next tick: it has halted, or it cannot
    enter an interrupt and is about to execute what does not read the pending lines. -/
def Inert (c : Cpu) : Prop :=
  c.processor.halted = true ∨
    ((c.processor.registers.get .mask = 0 ∨ c.processor.interruptsEnabled = false) ∧
      ∀ i ∈ c.instruction?, ¬ c.processor.Reads i.operation .status)

instance (c : Cpu) : Decidable c.Inert :=
  inferInstanceAs (Decidable (c.processor.halted = true ∨
    ((c.processor.registers.get .mask = 0 ∨ c.processor.interruptsEnabled = false) ∧
      ∀ i ∈ c.instruction?, ¬ c.processor.Reads i.operation .status)))

/-- Being inert is not a matter of the pending lines. -/
theorem Alike.inert_iff (h : c.Alike d) : d.Inert ↔ c.Inert := by
  have hhalted := h.processor.halted
  have hon := h.processor.interruptsEnabled
  have hmask : d.processor.registers.get .mask = c.processor.registers.get .mask :=
    h.processor.get (by decide)
  have hinstruction : d.instruction? = c.instruction? := by
    rw [instruction?, instruction?, h.processor.memory, h.processor.pc, h.table]
  have hreads := Processor.reads_congr h.processor.memory h.processor.pc h.processor.equal
  simp only [Inert, hhalted, hon, hmask, hinstruction, hreads]

/-! ### Parts of a tick -/

theorem faulted_alike (h : c.Alike d) (hhost : R host peer) (effects : List Effect) (f : Fault) :
    (c.faulted host effects f : Turn σ ε).Alike R (d.faulted peer effects f) := by
  constructor
  · refine ⟨?_, h.table, rfl, h.ticks⟩
    obtain ⟨rs, hrs, hd⟩ := h.processor
    rw [processor_faulted, processor_faulted, hd]
    exact ⟨rs, hrs, rfl⟩
  · exact hhost
  · rw [effects_faulted, effects_faulted, h.processor.pc]
  · rfl

theorem completed_alike (h : c.Alike d) (hhost : R host peer) (effects : List Effect) :
    (c.completed host effects : Turn σ ε).Alike R (d.completed peer effects) := by
  rw [completed, completed, h.processor.halted, h.processor.pc, h.ticks]
  split
  · exact ⟨h, hhost, rfl, rfl⟩
  · exact ⟨h, hhost, rfl, rfl⟩

/-- An instruction that does not read the pending lines does the same to both. -/
theorem perform_alike (hR : outlet.Respects R) (h : c.Alike d) (hhost : R host peer)
    {i : Instruction} (hreads : ¬ c.processor.Reads i.operation .status) :
    (c.perform outlet i host).Alike R (d.perform outlet i peer) := by
  have hresult := Processor.execute_alike h.processor hreads
  have hfetched : d.fetched i = c.fetched i := by
    rw [fetched, fetched, h.processor.pc, h.processor.ir]
  generalize hc : Processor.execute i.operation c.processor = result at hresult
  generalize hd : Processor.execute i.operation d.processor = result' at hresult
  cases hresult with
  | error f hpq =>
    -- both fail with the same fault, however far they got
    rw [perform_of_error hc, perform_of_error hd, hfetched]
    exact faulted_alike (h.withProcessor hpq) hhost _ f
  | @ok p q out hpq =>
    cases out with
    | silent =>
      rw [perform_of_silent hc, perform_of_silent hd, hfetched]
      exact completed_alike (h.withProcessor hpq) hhost _
    | text s width =>
      obtain ⟨hhost', hrequests⟩ := hR host peer s hhost
      obtain ⟨hserved, hsame⟩ := Processor.serve_alike hpq (outlet.deliver host s).2
      rcases hp : p.serve (outlet.deliver host s).2 with ⟨p', effects, ending⟩
      rcases hq : q.serve (outlet.deliver host s).2 with ⟨q', effects', ending'⟩
      rw [hp, hq] at hserved hsame
      obtain ⟨rfl, rfl⟩ := Prod.mk.inj hsame
      rw [← hrequests] at hq
      rw [perform_of_text hc hp, perform_of_text hd hq, hfetched]
      cases ending' with
      | done =>
        refine completed_alike (h.withProcessor ?_) hhost' _
        obtain ⟨rs, hrs, rfl⟩ := hserved
        exact ⟨rs, hrs, rfl⟩
      | fault f => exact faulted_alike (h.withProcessor hserved) hhost' _ f
      | failed reason => exact ⟨h.withProcessor hserved, hhost', rfl, rfl⟩

/-- **A tick of an inert processor** does the same whatever lines are pending. -/
theorem tick_alike (hR : outlet.Respects R) (h : c.Alike d) (hhost : R host peer)
    (hinert : c.Inert) : (c.tick outlet host).Alike R (d.tick outlet peer) := by
  have hhalted := h.processor.halted
  cases hrun : c.processor.halted with
  | true =>
    rw [tick_of_halted outlet hrun, tick_of_halted outlet (hhalted.trans hrun)]
    exact ⟨h, hhost, rfl, rfl⟩
  | false =>
    rcases hinert with hstop | ⟨hmasked, hreads⟩
    · rw [hrun] at hstop
      exact nomatch hstop
    have hon := h.processor.interruptsEnabled
    -- whatever is pending, the mask lets nothing through
    have hidle {c : Cpu} (hm : c.processor.registers.get .mask = 0 ∨
        c.processor.interruptsEnabled = false) : c.processor.nextLine? = none := by
      rw [Processor.nextLine?_eq_none_iff]
      rcases hm with hzero | hoff
      · refine .inr ?_
        rw [Processor.pendingLines, hzero]
        exact UInt8.and_zero
      · exact .inl hoff
    have hmasked' : d.processor.registers.get .mask = 0 ∨
        d.processor.interruptsEnabled = false := by
      rwa [h.processor.get (by decide), hon]
    rw [tick_of_idle hrun (hidle hmasked), tick_of_idle (hhalted.trans hrun) (hidle hmasked')]
    cases hbyte : c.processor.memory.get? c.processor.pc with
    | none =>
      have hbyte' : d.processor.memory.get? d.processor.pc = none := by
        rwa [h.processor.memory, h.processor.pc]
      rw [step_of_not_covers (Memory.get?_eq_none_iff.mp hbyte),
        step_of_not_covers (Memory.get?_eq_none_iff.mp hbyte'), h.processor.memory, h.processor.pc]
      exact faulted_alike h.counted hhost _ _
    | some opcode =>
      have hbyte' : d.processor.memory.get? d.processor.pc = some opcode := by
        rwa [h.processor.memory, h.processor.pc]
      cases hi : c.table.get opcode with
      | none =>
        have hi' : d.table.get opcode = none := by rwa [h.table]
        rw [step_of_illegal hbyte hi, step_of_illegal hbyte' hi', h.processor.pc]
        exact faulted_alike (h.fetching opcode _) hhost _ _
      | some i =>
        have hi' : d.table.get opcode = some i := by rwa [h.table]
        rw [step_of_instruction hbyte hi, step_of_instruction hbyte' hi']
        refine perform_alike hR (h.fetching opcode _) hhost fun hreads' => ?_
        refine hreads i (instruction?_eq_some_iff.mpr ⟨opcode, hbyte, hi⟩) ?_
        have hsame := Processor.reads_congr (p := c.processor)
          (q := (c.fetching opcode i.mnemonic).processor) rfl rfl rfl
        exact (hsame _ _).mp hreads'

end Cpu

/-! ## Histories -/

/-- **Rigs whose runs so far differ at most in the pending lines:** their outputs and reports are the
    same, and their hosts answer the same. -/
structure Rig.Alike (R : σ → σ → Prop) (r s : Rig σ) : Prop where
  cpu : r.cpu.Alike s.cpu
  host : R r.host s.host
  visible : s.visible = r.visible

/-- A tick, a request for an interrupt or a firing of the timer. -/
def HostAction.IsTickOrRequest : HostAction → Prop
  | .tick | .raise _ | .timer => True
  | .poke _ _ | .setRegister _ _ | .setSp _ => False

instance : DecidablePred HostAction.IsTickOrRequest
  | .tick | .raise _ | .timer => isTrue trivial
  | .poke _ _ | .setRegister _ _ | .setSp _ => isFalse id

namespace Rig

variable {outlet : Outlet σ ε} {R : σ → σ → Prop} {r s t : Rig σ}

theorem Alike.symm (hR : Equivalence R) (h : r.Alike R s) : s.Alike R r :=
  ⟨h.cpu.symm, hR.symm h.host, h.visible.symm⟩

theorem Alike.trans (hR : Equivalence R) (h : r.Alike R s) (h' : s.Alike R t) : r.Alike R t :=
  ⟨h.cpu.trans h'.cpu, hR.trans h.host h'.host, h'.visible.trans h.visible⟩

/-- Ticks of inert processors keep rigs alike. -/
theorem Alike.tick (hR : outlet.Respects R) (h : r.Alike R s) (hinert : r.cpu.Inert) :
    (r.tick outlet).Alike R (s.tick outlet) := by
  have hturn := Cpu.tick_alike hR h.cpu h.host hinert
  refine ⟨hturn.cpu, hturn.host, ?_⟩
  have hvisible := h.visible
  simp only [Rig.visible] at hvisible
  simp only [Rig.visible, Rig.tick, Array.toList_appendList, List.filter_append, hvisible,
    hturn.effects]

/-- Requests keep the rig alike to what it was alike to. -/
theorem Alike.request (h : r.Alike R s) {a : HostAction} (ha : a.IsTickOrRequest)
    (hne : a ≠ .tick) : r.Alike R (s.act outlet a) := by
  cases a with
  | tick => exact absurd rfl hne
  | timer => exact ⟨h.cpu.trans (s.cpu.alike_withPending Cpu.timerLine), h.host, h.visible⟩
  | raise line =>
    rw [act, Cpu.raise, Processor.raise]
    cases register? line with
    | none => exact h
    | some k => exact ⟨h.cpu.trans (s.cpu.alike_withPending k), h.host, h.visible⟩
  | poke a value => exact ha.elim
  | setRegister index value => exact ha.elim
  | setSp value => exact ha.elim

/-- Requests without a tick among them. -/
theorem Alike.requests (h : r.Alike R s) {actions : List HostAction}
    (hactions : ∀ a ∈ actions, a.IsTickOrRequest) (hne : .tick ∉ actions) :
    r.Alike R (s.run outlet actions) := by
  induction actions generalizing s with
  | nil => exact h
  | cons a actions ih =>
    simp only [List.mem_cons, not_or, forall_eq_or_imp] at hactions hne
    exact ih (h.request hactions.1 (Ne.symm hne.1)) hactions.2 hne.2

/-- **Every tick of a history finds the processor inert.** -/
def Undisturbed (outlet : Outlet σ ε) (rig : Rig σ) (actions : List HostAction) : Prop :=
  ∀ before after, actions = before ++ .tick :: after → (rig.run outlet before).cpu.Inert

theorem Undisturbed.tail {a : HostAction} {actions : List HostAction}
    (h : r.Undisturbed outlet (a :: actions)) : (r.act outlet a).Undisturbed outlet actions := by
  rintro before after rfl
  exact h (a :: before) after rfl

theorem Undisturbed.of_prefix {actions more : List HostAction}
    (h : r.Undisturbed outlet (actions ++ more)) : r.Undisturbed outlet actions := by
  rintro before after rfl
  exact h before (after ++ more) (by simp)

theorem undisturbed_nil (rig : Rig σ) : rig.Undisturbed outlet [] := by
  intro before after h
  simp at h

theorem undisturbed_cons_iff {a : HostAction} {actions : List HostAction} :
    r.Undisturbed outlet (a :: actions) ↔
      (a = .tick → r.cpu.Inert) ∧ (r.act outlet a).Undisturbed outlet actions := by
  constructor
  · intro h
    refine ⟨?_, h.tail⟩
    rintro rfl
    exact h [] actions rfl
  · rintro ⟨hfirst, hrest⟩ before after h
    cases before with
    | nil => exact hfirst (List.cons.inj h).1
    | cons b before =>
      obtain ⟨rfl, hactions⟩ := List.cons.inj h
      exact hrest before after hactions

instance decidableUndisturbed (outlet : Outlet σ ε) :
    ∀ (rig : Rig σ) (actions : List HostAction), Decidable (rig.Undisturbed outlet actions)
  | rig, [] => isTrue (undisturbed_nil rig)
  | rig, a :: actions =>
    have := decidableUndisturbed outlet (rig.act outlet a) actions
    decidable_of_iff _ undisturbed_cons_iff.symm

/-- **Two histories with the same number of ticks** stay alike, whatever is requested between the
    ticks, if every tick of the first one finds the processor inert. -/
theorem run_alike (hR : outlet.Respects R) (hequiv : Equivalence R) (h : r.Alike R s)
    {as bs : List HostAction} (has : ∀ a ∈ as, a.IsTickOrRequest)
    (hbs : ∀ b ∈ bs, b.IsTickOrRequest) (hticks : as.count .tick = bs.count .tick)
    (hinert : r.Undisturbed outlet as) : (r.run outlet as).Alike R (s.run outlet bs) := by
  induction as generalizing r s bs with
  | nil =>
    have hnone : HostAction.tick ∉ bs := List.count_eq_zero.mp hticks.symm
    exact h.requests hbs hnone
  | cons a as ih =>
    simp only [List.mem_cons, forall_eq_or_imp] at has
    by_cases ha : a = .tick
    · -- the second history comes to its next tick as well
      subst ha
      rw [List.count_cons_self] at hticks
      have hmem : HostAction.tick ∈ bs := List.count_pos_iff.mp (by omega)
      obtain ⟨before, after, rfl, hbefore⟩ := List.eq_append_cons_of_mem hmem
      simp only [List.mem_append, List.mem_cons] at hbs
      have hbefore' : r.Alike R (s.run outlet before) :=
        h.requests (fun b hb => hbs b (.inl hb)) hbefore
      rw [run_append, run_cons, run_cons]
      refine ih (hbefore'.tick hR (hinert [] as rfl)) has.2 (fun b hb => hbs b (.inr (.inr hb)))
        ?_ hinert.tail
      rw [List.count_append, List.count_eq_zero.mpr hbefore, List.count_cons_self] at hticks
      omega
    · -- a request of the first history alone
      have hreq : (r.act outlet a).Alike R s := ((h.symm hequiv).request has.1 ha).symm hequiv
      refine ih hreq has.2 hbs ?_ hinert.tail
      rwa [List.count_cons_of_ne ha] at hticks

end Rig

end Ls8
