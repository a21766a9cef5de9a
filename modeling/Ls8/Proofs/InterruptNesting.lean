import Ls8.Proofs.FullMemory
import Ls8.Proofs.Stopping

/-
  Interrupt handlers do not nest.

  While a handler runs interrupts are disabled, so no other one is entered before it has returned.
  Two steps of a history matter: one enters an interrupt, whether or not the entry gets to its end, and
  one completes a return.  A return that faults half way is neither.

  1. **The step** (`interruptsEnabled_act`).  Interrupts are enabled after a step exactly if it
     completes a return, or if they were enabled before and the step enters nothing.  Nothing that the
     host does between ticks, and nothing that it asks for while it takes a text, touches the flag.

  2. **The run** (`entryCount_le`).  The number of entries, and one more if interrupts are enabled at the
     end, is at most the number of completed returns, and one more if they were enabled at the beginning.

  That there is a return between any two entries is the second point once more, for what lies between
  them.
-/

namespace Ls8

variable {σ ε : Type}

namespace Processor

variable {p q : Processor} {out : Output}

/-- **Only the interrupt return enables interrupts** without a fault, and no operation disables
    them. -/
theorem interruptsEnabled_of_execute {op : Operation} (h : execute op p = .ok out q) :
    q.interruptsEnabled = (p.interruptsEnabled || op == .iret) := by
  have hland : (out.land q).interruptsEnabled = q.interruptsEnabled := by cases out <;> rfl
  rw [← hland]
  have hrow := row_of_execute h
  generalize out.land q = r at hrow
  generalize out.text? = text at hrow
  cases hrow with
  | iret => exact (Bool.or_true _).symm
  | _ => exact (Bool.or_false _).symm

/-- The interrupt return puts out nothing. -/
theorem ne_iret_of_text {op : Operation} {s : String} {width : Nat}
    (h : execute op p = .ok (.text s width) q) : op ≠ .iret := by
  rintro rfl
  have hrow := row_of_execute h
  generalize (Output.text s width).land q = r at hrow
  rw [Output.text?] at hrow
  cases hrow

/-- Serving requests leaves interrupts enabled or disabled. -/
theorem interruptsEnabled_serve {requests : List (Request ε)} {effects : List Effect}
    {ending : Ending ε} (h : p.serve requests = (q, effects, ending)) :
    q.interruptsEnabled = p.interruptsEnabled := by
  have hframe := congrArg interruptsEnabled (serve_frame requests p)
  rwa [h] at hframe

end Processor

/-! ## Ticks -/

namespace Cpu

/-- **The next tick completes a return:** it executes an interrupt return, and does not fault. -/
def Returns (outlet : Outlet σ ε) (c : Cpu) (host : σ) : Prop :=
  c.Executes .iret ∧ (c.tick outlet host).cpu.processor.halted = false

instance (outlet : Outlet σ ε) (c : Cpu) (host : σ) : Decidable (c.Returns outlet host) :=
  instDecidableAnd

variable {outlet : Outlet σ ε} {c : Cpu} {host : σ} {line : Register}

/-- Nothing is executed in a tick that enters an interrupt. -/
theorem Executes.not_enters {op : Operation} (h : c.Executes op) : ¬ c.Enters line := by
  rintro ⟨_, hline⟩
  exact nomatch h.2.1.symm.trans hline

/-- An interrupt is entered only while interrupts are enabled. -/
theorem Enters.enabled (h : c.Enters line) : c.processor.interruptsEnabled = true := by
  have hline := h.2
  rw [Processor.nextLine?] at hline
  split at hline
  · assumption
  · cases hline

/-- **Interrupts after an instruction:** they are enabled if it is an interrupt return that did not
    fault, and as before otherwise. -/
theorem interruptsEnabled_perform (outlet : Outlet σ ε) (i : Instruction) (host : σ)
    (hrun : c.processor.halted = false) :
    (c.perform outlet i host).cpu.processor.interruptsEnabled = (c.processor.interruptsEnabled ||
      (i.operation == .iret && !(c.perform outlet i host).cpu.processor.halted)) := by
  refine perform_cases ?_ ?_ ?_ ?_ ?_
  · -- a fault, and so no return that was completed
    intro f q h
    have hq : q.interruptsEnabled = c.processor.interruptsEnabled := by
      rw [(Processor.execute_error_frame h).1]
    simpa using hq
  · intro q h
    have hhalted := Processor.halted_of_execute h
    rw [hrun, Bool.false_or] at hhalted
    rw [cpu_completed, processor_withProcessor, Processor.interruptsEnabled_of_execute h, hhalted]
    cases i.operation <;> rfl
  · intro s width q r effects h hserve
    have hr : r.interruptsEnabled = c.processor.interruptsEnabled := by
      rw [Processor.interruptsEnabled_serve hserve, Processor.eq_of_execute_text h]
    rw [cpu_completed, beq_false_of_ne (Processor.ne_iret_of_text h), Bool.false_and, Bool.or_false]
    exact hr
  · intro s width q r effects f h hserve
    have hr : r.interruptsEnabled = c.processor.interruptsEnabled := by
      rw [Processor.interruptsEnabled_serve hserve, Processor.eq_of_execute_text h]
    rw [beq_false_of_ne (Processor.ne_iret_of_text h), Bool.false_and, Bool.or_false]
    exact hr
  · intro s width q r effects reason h hserve
    have hr : r.interruptsEnabled = c.processor.interruptsEnabled := by
      rw [Processor.interruptsEnabled_serve hserve, Processor.eq_of_execute_text h]
    rw [beq_false_of_ne (Processor.ne_iret_of_text h), Bool.false_and, Bool.or_false]
    exact hr

/-- **Interrupts after a tick:** they are enabled exactly if it completes a return, or if they were
    enabled before and it enters nothing. -/
theorem interruptsEnabled_tick (outlet : Outlet σ ε) (c : Cpu) (host : σ) :
    (c.tick outlet host).cpu.processor.interruptsEnabled = true ↔
      c.Returns outlet host ∨
        c.processor.interruptsEnabled = true ∧ ¬ ∃ line, c.Enters line := by
  -- a tick that enters nothing and completes no return leaves the flag
  have kept {turn : Turn σ ε}
      (hturn : turn.cpu.processor.interruptsEnabled = c.processor.interruptsEnabled)
      (henters : ∀ line, ¬ c.Enters line)
      (hreturns : ¬ (c.Executes .iret ∧ turn.cpu.processor.halted = false)) :
      turn.cpu.processor.interruptsEnabled = true ↔
        (c.Executes .iret ∧ turn.cpu.processor.halted = false) ∨
          c.processor.interruptsEnabled = true ∧ ¬ ∃ line, c.Enters line := by
    rw [hturn, or_iff_right hreturns, and_iff_left (not_exists.mpr henters)]
  have idle (h : c.processor.nextLine? = none) (line : Register) : ¬ c.Enters line := by
    rintro ⟨_, hline⟩
    exact nomatch h.symm.trans hline
  -- an entry disables interrupts, also if it faults
  have entered {turn : Turn σ ε} {line : Register} (h : c.Enters line)
      (hturn : turn.cpu.processor.interruptsEnabled = false) :
      turn.cpu.processor.interruptsEnabled = true ↔
        (c.Executes .iret ∧ turn.cpu.processor.halted = false) ∨
          c.processor.interruptsEnabled = true ∧ ¬ ∃ line, c.Enters line := by
    rw [hturn]
    refine ⟨nofun, ?_⟩
    rintro (⟨hexec, _⟩ | ⟨_, hnone⟩)
    · exact absurd h hexec.not_enters
    · exact absurd ⟨line, h⟩ hnone
  rw [Returns]
  refine tick_cases ?_ ?_ ?_ ?_ ?_ ?_
  · intro hhalted
    have hnone {P : Prop} (h : c.processor.halted = false) : P := nomatch hhalted.symm.trans h
    exact kept rfl (fun line h => hnone h.1) fun h => hnone h.1.1
  · intro line q hrun hline hq
    refine entered ⟨hrun, hline⟩ ?_
    show q.interruptsEnabled = false
    rw [Processor.enterInterrupt_frame hq]
  · intro line f q hrun hline hq
    refine entered ⟨hrun, hline⟩ ?_
    show q.interruptsEnabled = false
    rw [Processor.enterInterrupt_error_frame hq]
  · exact fun _ hidle _ => kept rfl (idle hidle) fun h => nomatch h.2
  · exact fun opcode _ hidle _ _ => kept rfl (idle hidle) fun h => nomatch h.2
  · intro opcode i hrun hidle hbyte hentry
    have hi : c.instruction? = some i := instruction?_eq_some_iff.mpr ⟨opcode, hbyte, hentry⟩
    have hexec : c.Executes .iret ↔ i.operation = .iret := by
      rw [Executes, hi, Option.map_some, Option.some.injEq]
      exact ⟨fun h => h.2.2, fun h => ⟨hrun, hidle, h⟩⟩
    have hrun' : (c.fetching opcode i.mnemonic).processor.halted = false := hrun
    have hflag := interruptsEnabled_perform outlet i host hrun'
    rw [hflag, hexec, and_iff_left (not_exists.mpr (idle hidle))]
    simp [or_comm]

end Cpu

/-! ## Histories -/

namespace Rig

variable {outlet : Outlet σ ε} {rig : Rig σ}

/-- **The steps of a history:** its actions, each with the rig that it finds. -/
def steps (outlet : Outlet σ ε) (rig : Rig σ) : List HostAction → List (Rig σ × HostAction)
  | [] => []
  | a :: rest => (rig, a) :: (rig.act outlet a).steps outlet rest

/-- **A step enters an interrupt,** whether or not the entry gets to its end. -/
def EntersInterrupt (step : Rig σ × HostAction) : Prop :=
  step.2 = .tick ∧ ∃ line, step.1.cpu.Enters line

/-- **A step completes a return** from an interrupt. -/
def CompletesReturn (outlet : Outlet σ ε) (step : Rig σ × HostAction) : Prop :=
  step.2 = .tick ∧ step.1.cpu.Returns outlet step.1.host

instance (step : Rig σ × HostAction) : Decidable (EntersInterrupt step) := instDecidableAnd

instance (step : Rig σ × HostAction) : Decidable (CompletesReturn outlet step) := instDecidableAnd

/-- How many steps enter an interrupt. -/
def entryCount (steps : List (Rig σ × HostAction)) : Nat :=
  steps.countP fun step => decide (EntersInterrupt step)

/-- How many steps complete a return. -/
def returnCount (outlet : Outlet σ ε) (steps : List (Rig σ × HostAction)) : Nat :=
  steps.countP fun step => decide (CompletesReturn outlet step)

/-- No step does both. -/
theorem not_completesReturn_of_entersInterrupt (outlet : Outlet σ ε) {step : Rig σ × HostAction}
    (h : EntersInterrupt step) : ¬ CompletesReturn outlet step := by
  rintro ⟨_, hexec, _⟩
  obtain ⟨line, hline⟩ := h.2
  exact hexec.not_enters hline

/-- What the host does between ticks leaves interrupts enabled or disabled. -/
theorem interruptsEnabled_act_of_ne_tick {a : HostAction} (ha : a ≠ .tick) :
    (rig.act outlet a).cpu.processor.interruptsEnabled = rig.cpu.processor.interruptsEnabled := by
  cases a with
  | tick => exact absurd rfl ha
  | timer | setSp => rfl
  | poke a v =>
    rw [act, Cpu.poke]
    cases rig.cpu.processor.memory.write a v <;> rfl
  | raise n =>
    rw [act, Cpu.raise]
    cases hraise : rig.cpu.processor.raise n with
    | error e => rfl
    | ok q =>
      obtain ⟨_, _, rfl⟩ := Processor.raise_eq_ok_iff.mp hraise
      rfl
  | setRegister i v =>
    rw [act]
    cases hset : Processor.setRegister i (UInt8.ofInt v) rig.cpu.processor with
    | error e q => rfl
    | ok u q =>
      obtain ⟨_, _, rfl⟩ := Processor.setRegister_eq_ok_iff.mp hset
      rfl

/-- **Interrupts after a step:** they are enabled exactly if it completes a return, or if they were
    enabled before and it enters nothing. -/
theorem interruptsEnabled_act (outlet : Outlet σ ε) (rig : Rig σ) (a : HostAction) :
    (rig.act outlet a).cpu.processor.interruptsEnabled = true ↔
      CompletesReturn outlet (rig, a) ∨
        rig.cpu.processor.interruptsEnabled = true ∧ ¬ EntersInterrupt (rig, a) := by
  by_cases ha : a = .tick
  · subst ha
    simp only [CompletesReturn, EntersInterrupt, true_and]
    exact Cpu.interruptsEnabled_tick outlet rig.cpu rig.host
  · rw [interruptsEnabled_act_of_ne_tick ha]
    simp [CompletesReturn, EntersInterrupt, ha]

/-- One more if interrupts are enabled. -/
def room (rig : Rig σ) : Nat := if rig.cpu.processor.interruptsEnabled then 1 else 0

/-- **Every entry but one needs a return before it,** and the one needs interrupts to be enabled at
    the beginning. -/
theorem entryCount_le (outlet : Outlet σ ε) (rig : Rig σ) (actions : List HostAction) :
    entryCount (rig.steps outlet actions) + (rig.run outlet actions).room ≤
      returnCount outlet (rig.steps outlet actions) + rig.room := by
  induction actions generalizing rig with
  | nil => exact Nat.le_refl _
  | cons a rest ih =>
    have hrest := ih (rig.act outlet a)
    have hflag := interruptsEnabled_act outlet rig a
    have hone : (rig.act outlet a).room ≤ 1 := by
      rw [room]
      split <;> omega
    simp only [entryCount, returnCount, steps, List.countP_cons, run_cons] at hrest ⊢
    by_cases henters : EntersInterrupt (rig, a)
    · -- an entry: interrupts were enabled before, and are not any more
      have hnot := not_completesReturn_of_entersInterrupt outlet henters
      obtain ⟨line, hline⟩ := henters.2
      have hbefore : rig.room = 1 := if_pos (Cpu.Enters.enabled hline)
      have hafter : (rig.act outlet a).room = 0 := if_neg (by simp [hflag, henters, hnot])
      simp only [henters, hnot, decide_true, decide_false, if_true] at hrest ⊢
      simp only [Bool.false_eq_true, if_false]
      omega
    · by_cases hreturns : CompletesReturn outlet (rig, a)
      · simp only [henters, hreturns, decide_true, decide_false, if_true]
        simp only [Bool.false_eq_true, if_false]
        omega
      · have hsame : (rig.act outlet a).room = rig.room := by
          simp only [room, hflag, henters, hreturns, false_or, not_false_eq_true, and_true]
        simp only [henters, hreturns, decide_false]
        simp only [Bool.false_eq_true, if_false]
        omega

/-- What holds of the steps of a history holds of those up to any moment. -/
theorem exists_of_prefix_steps {rig : Rig σ} {actions : List HostAction}
    {part : List (Rig σ × HostAction)} (h : part <+: rig.steps outlet actions) :
    ∃ before, part = rig.steps outlet before := by
  induction actions generalizing rig part with
  | nil => exact ⟨[], List.prefix_nil.mp h⟩
  | cons a rest ih =>
    cases part with
    | nil => exact ⟨[], rfl⟩
    | cons step part =>
      obtain ⟨rfl, hpart⟩ := List.cons_prefix_cons.mp h
      obtain ⟨before, rfl⟩ := ih hpart
      exact ⟨a :: before, rfl⟩

/-- What lies between two steps of a history is a history from where the first one leads. -/
theorem exists_of_steps_eq {rig : Rig σ} {actions : List HostAction}
    {before after : List (Rig σ × HostAction)} {step : Rig σ × HostAction}
    (h : rig.steps outlet actions = before ++ step :: after) :
    ∃ later, after = (step.1.act outlet step.2).steps outlet later := by
  induction actions generalizing rig before with
  | nil => exact absurd h.symm (by simp [steps])
  | cons a rest ih =>
    cases before with
    | nil =>
      obtain ⟨rfl, rfl⟩ := List.cons.inj h
      exact ⟨rest, rfl⟩
    | cons first before => exact ih (List.cons.inj h).2

/-- **Interrupt handlers do not nest.**  Let a host tick a processor, request interrupts, let the timer
    fire, write into memory and set registers, in any order and from any state.

    1. Between any two steps that enter an interrupt there is one that completes a return.
    2. At every moment at most one interrupt more has been entered than returns were completed.
    3. Interrupts are enabled after a step exactly if it completes a return, or if they were enabled
       before and it enters no interrupt. -/
theorem handlers_do_not_nest (outlet : Outlet σ ε) (rig : Rig σ) (actions : List HostAction) :
    let steps := rig.steps outlet actions
    (∀ before entry between entry' after, steps = before ++ entry :: (between ++ entry' :: after) →
      EntersInterrupt entry → EntersInterrupt entry' →
        ∃ step ∈ between, CompletesReturn outlet step) ∧
    (∀ part, part <+: steps → entryCount part ≤ returnCount outlet part + 1) ∧
    ∀ step ∈ steps, (step.1.act outlet step.2).cpu.processor.interruptsEnabled = true ↔
      CompletesReturn outlet step ∨
        step.1.cpu.processor.interruptsEnabled = true ∧ ¬ EntersInterrupt step := by
  intro steps
  refine ⟨fun before entry between entry' after hsteps hentry hentry' => ?_, fun part hpart => ?_,
    fun step _ => interruptsEnabled_act outlet step.1 step.2⟩
  · -- the first entry leaves interrupts disabled, so the second one needs a return
    obtain ⟨later, hlater⟩ := exists_of_steps_eq hsteps
    have hpart : between ++ [entry'] <+: (entry.1.act outlet entry.2).steps outlet later := by
      rw [← hlater]
      exact ⟨after, by simp⟩
    obtain ⟨actions', hactions'⟩ := exists_of_prefix_steps hpart
    have hcount := entryCount_le outlet (entry.1.act outlet entry.2) actions'
    have hroom : (entry.1.act outlet entry.2).room = 0 := by
      refine if_neg fun henabled => ?_
      rcases (interruptsEnabled_act outlet entry.1 entry.2).mp henabled with hreturn | ⟨_, hnot⟩
      · exact not_completesReturn_of_entersInterrupt outlet hentry hreturn
      · exact hnot hentry
    have hentries : 1 ≤ entryCount (between ++ [entry']) :=
      List.countP_pos_iff.mpr ⟨entry', by simp, by simpa using hentry'⟩
    rw [← hactions', hroom] at hcount
    have hreturns : 0 < returnCount outlet (between ++ [entry']) := by omega
    obtain ⟨step, hmem, hstep⟩ := List.countP_pos_iff.mp hreturns
    have hreturn : CompletesReturn outlet step := by simpa using hstep
    rcases List.mem_append.mp hmem with hbetween | hlast
    · exact ⟨step, hbetween, hreturn⟩
    · rw [List.mem_singleton.mp hlast] at hreturn
      exact absurd hreturn (not_completesReturn_of_entersInterrupt outlet hentry')
  · obtain ⟨before, rfl⟩ := exists_of_prefix_steps hpart
    have hcount := entryCount_le outlet rig before
    have hone : rig.room ≤ 1 := by
      rw [room]
      split <;> omega
    omega

/-- A handler that unmasks all lines before it returns, entered for the timer; then another line is
    requested, and its interrupt is entered. -/
theorem handlers_do_not_nest_of_two_entries :
    let outlet : Outlet Unit String := .silent Unit String
    let rig : Rig Unit := {
      cpu := { processor := { memory := .holding [0x04, 5, 0xff, 0x1a] } }, host := () }
    let actions : List HostAction := [.tick, .timer, .tick, .tick, .tick, .raise 3, .tick]
    let steps := rig.steps outlet actions
    entryCount steps = 2 ∧ returnCount outlet steps = 1 ∧
      ∃ step ∈ (steps.drop 3).take 3, CompletesReturn outlet step := by
  intro outlet rig actions steps
  obtain ⟨hbetween, _, _⟩ := handlers_do_not_nest outlet rig actions
  have hcounts : entryCount steps = 2 ∧ returnCount outlet steps = 1 := by decide +kernel
  refine ⟨hcounts.1, hcounts.2, ?_⟩
  exact hbetween (steps.take 2) steps[2] _ steps[6] [] rfl (by decide +kernel) (by decide +kernel)

end Rig

end Ls8
