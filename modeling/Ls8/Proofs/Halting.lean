import Ls8.Proofs.Clock.Endings
import Ls8.Proofs.MachineHistory
import Ls8.Proofs.Stopping
import Mathlib.Algebra.Ring.Int.Defs

/-
  Halting is for good, and a fault is reported once.

  1. **Faults.**  A machine is `Settled` if its fault, if there is one, has halted the processor, and is
     the only one that was ever reported.  A tick keeps that, since a running processor of such a
     machine has no fault yet.

  2. **The clock.**  Whatever halts the processor stops the clock in the same tick, and what is stopped
     has no events.  So no firing ever finds the processor halted, and the firing that halts it is the
     last thing that happens in its run (`Orderly`).

  3. **Afterwards** the processor rests.  Each action of a host changes pending lines or memory, or it
     changes nothing (`rests_act`).

  Main statement: `halting_is_terminal`.
-/

namespace Ls8

variable {τ σ ε : Type}

namespace Rig

variable {outlet : Outlet σ ε} {rig : Rig σ}

/-! ## Faults -/

/-- **A fault has halted the processor,** and it is the only one that was reported. -/
structure Settled (rig : Rig σ) : Prop where
  halted : rig.cpu.fault.isSome → rig.cpu.processor.halted = true
  reports : rig.reports = (rig.cpu.fault.map Fault.message).toList

/-- A processor that runs has no fault. -/
theorem Settled.fault (h : rig.Settled) (hrun : rig.cpu.processor.halted = false) :
    rig.cpu.fault = none := by
  rw [← Option.not_isSome_iff_eq_none]
  intro hsome
  rw [h.halted hsome] at hrun
  cases hrun

theorem reports_listing (rig : Rig σ) (effects : List Effect) :
    (rig.listing (fun _ => true) effects).reports =
      rig.reports ++ effects.filterMap Effect.report? := by
  rw [reports, reports, toList_effects_listing, List.filterMap_append, List.filter_eq_self.mpr]
  exact fun _ _ => rfl

/-- Reports are visible. -/
theorem reports_eq (rig : Rig σ) : rig.reports = rig.visible.filterMap Effect.report? := by
  have hsame : (fun e : Effect => if e.isVisible = true then e.report? else none) =
      Effect.report? := funext fun e => by cases e <;> rfl
  rw [reports, visible, List.filterMap_filter, hsame]

/-- A stop looks like a notice, and reports nothing either. -/
theorem filterMap_report?_listed (n : Nat) (effects : List Effect) :
    (effects.map (.listed n)).filterMap Effect.report? = effects.filterMap Effect.report? := by
  have hsame : Effect.report? ∘ Effect.listed n = Effect.report? :=
    funext fun e => by cases e <;> rfl
  rw [List.filterMap_map, hsame]

/-- A tick on a clock that finds the processor halted does nothing. -/
theorem ticked_of_halted (h : rig.cpu.processor.halted = true) (n : Nat) :
    rig.ticked outlet n = rig := by
  rw [ticked, Cpu.tick_of_halted outlet h]
  rfl

/-- **A tick keeps a machine settled.** -/
theorem Settled.ticked (h : rig.Settled) (outlet : Outlet σ ε) (n : Nat) :
    (rig.ticked outlet n).Settled := by
  cases hhalted : rig.cpu.processor.halted with
  | true =>
    rw [ticked_of_halted hhalted]
    exact h
  | false =>
    -- there was no fault before this tick, and so no report
    have hnone : rig.reports = [] := by rw [h.reports, h.fault hhalted]; rfl
    have hreports : (rig.ticked outlet n).reports =
        (rig.cpu.tick outlet rig.host).effects.filterMap Effect.report? := by
      rw [Rig.ticked, reports_listing, filterMap_report?_listed]
      exact congrArg (· ++ _) hnone
    have hcpu : (rig.ticked outlet n).cpu = (rig.cpu.tick outlet rig.host).cpu := rfl
    rcases Cpu.reports_tick outlet rig.cpu rig.host with ⟨hquiet, hkept⟩ | ⟨f, hf, hkept, hhalts⟩
    · rw [h.fault hhalted] at hkept
      refine ⟨?_, by rw [hreports, hquiet, hcpu, hkept]; rfl⟩
      rw [hcpu, hkept]
      exact (absurd · Bool.false_ne_true)
    · exact ⟨fun _ => hhalts, by rw [hreports, hf, hcpu, hkept]; rfl⟩

/-- Requests of a host do not matter. -/
theorem Settled.served (h : rig.Settled) (n : Nat) (requests : List (Request ε)) :
    (rig.served (fun _ => true) n requests).Settled := by
  have hhalted := congrArg Processor.halted
    (Processor.serve_frame requests rig.cpu.processor)
  have hquiet := Processor.filterMap_serve (rfl : Effect.report? .stopClock = none) requests
    rig.cpu.processor
  refine ⟨fun hsome => hhalted.trans (h.halted hsome), ?_⟩
  rw [Rig.served, reports_listing, filterMap_report?_listed, hquiet, List.append_nil]
  exact h.reports

/-- Neither do notices. -/
theorem Settled.told (h : rig.Settled) (d : Diagnostic) :
    (rig.listing (fun _ => true) [.diagnostic d]).Settled := by
  refine ⟨h.halted, ?_⟩
  rw [reports_listing]
  exact (List.append_nil _).trans h.reports

end Rig

namespace Machine

/-! ## The clock -/

/-- A clock that is stopped has no events and does not run. -/
def Stopped (c : Clock τ Beat) : Prop := c.running = false ∧ c.events = .empty

/-- **Where a run is between two firings.**  The machine is settled; no firing so far found the
    processor halted or with a fault; and if the last one has halted it, the clock is stopped and
    nothing has happened since. -/
structure Orderly (env : Environment τ σ ε) (s : Clock τ Beat × (Clock.Log Beat (Rig σ) × Rig σ)) :
    Prop where
  settled : s.2.2.Settled
  found : ∀ e ∈ s.2.1, e.2.cpu.processor.halted = false ∧ e.2.cpu.fault = none
  stopped : s.2.2.cpu.processor.halted = true → Stopped s.1
  last : s.2.2.cpu.processor.halted = true →
    ∃ earlier rig n, s.2.1 = earlier ++ [(.tick, rig)] ∧ s.2.2 = rig.ticked env.output n

variable {env : Environment τ σ ε} {c d : Clock τ Beat} {log : Clock.Log Beat (Rig σ)}
variable {rig rig' : Rig σ}

/-- As long as the processor runs, only the firings so far matter. -/
theorem Orderly.of_running (hsettled : rig.Settled)
    (hfound : ∀ e ∈ log, e.2.cpu.processor.halted = false ∧ e.2.cpu.fault = none)
    (hrun : rig.cpu.processor.halted = false) : Orderly env (c, (log, rig)) where
  settled := hsettled
  found := hfound
  stopped := fun h => nomatch hrun.symm.trans h
  last := fun h => nomatch hrun.symm.trans h

/-- The log with a firing that finds the processor running. -/
theorem Orderly.found_append (h : Orderly env (c, (log, rig)))
    (hrun : rig.cpu.processor.halted = false) (beat : Beat) :
    ∀ e ∈ log ++ [(beat, rig)], e.2.cpu.processor.halted = false ∧ e.2.cpu.fault = none := by
  intro e he
  rcases List.mem_append.mp he with he | he
  · exact h.found e he
  · rw [List.mem_singleton.mp he]
    exact ⟨hrun, h.settled.fault hrun⟩

/-- **A tick that finds the processor running** stops the clock if it halts it. -/
theorem Orderly.tick (h : Orderly env (c, (log, rig))) (hrun : rig.cpu.processor.halted = false)
    (d : Clock τ Beat) (n : Nat) :
    Orderly env (d.stopIf (decide (.stopClock ∈ (rig.cpu.tick env.output rig.host).effects)),
      (log ++ [(.tick, rig)], rig.ticked env.output n)) where
  settled := h.settled.ticked env.output n
  found := h.found_append hrun .tick
  stopped := by
    intro hhalted
    obtain ⟨_, hstop⟩ := Cpu.stop_of_halted hrun hhalted
    rw [decide_eq_true hstop]
    exact ⟨rfl, rfl⟩
  last := fun _ => ⟨log, rig, n, rfl, rfl⟩

/-- Only whether a clock runs, and its events, matter. -/
theorem Orderly.of_clock (h : Orderly env (c, (log, rig))) (hrunning : d.running = c.running)
    (hevents : d.events = c.events) : Orderly env (d, (log, rig)) where
  settled := h.settled
  found := h.found
  stopped := fun hhalted =>
    ⟨hrunning.trans (h.stopped hhalted).1, hevents.trans (h.stopped hhalted).2⟩
  last := h.last

variable [Add τ] [Zero τ] [LE τ] [LT τ] [DecidableLE τ] [DecidableLT τ]

/-- **Every firing and every sleep is orderly.** -/
theorem upholds_orderly (env : Environment τ σ ε) :
    (clockHost env).logged.Upholds (Orderly env) fun _ => Orderly env where
  fire := by
    rintro c ⟨log, rig⟩ e rest now pending started h hpop
    -- an event was due, so the clock is not stopped, and the processor runs
    have hrun : rig.cpu.processor.halted = false := by
      refine Bool.not_eq_true _ ▸ fun hhalted => ?_
      rw [(h.stopped hhalted).2] at hpop
      cases hpop
    refine .of_concluded ?_
    rintro _ rfl
    cases e.source.command with
    | tick =>
      have hticked := h.tick hrun (c.reschedule e rest now) (c.reschedule e rest now).dispatched
      refine ⟨_, _, run_tick (lists_logged env) env _ (log ++ [(.tick, rig)]) rig, ?_,
        fun _ => hticked⟩
      exact hticked.of_clock rfl rfl
    | timer =>
      have hfired : Orderly env (c.reschedule e rest now,
          (log ++ [(.timer, rig)], { rig with cpu := rig.cpu.timer })) :=
        .of_running ⟨h.settled.halted, h.settled.reports⟩ (h.found_append hrun .timer) hrun
      refine ⟨none, _, rfl, ?_, fun _ => hfired⟩
      exact hfired.of_clock rfl rfl
  sleep := by
    intro d pending started
    refine .of_concluded ?_
    rintro ⟨c, log, rig⟩ ⟨h, hrunning⟩
    have hrun : rig.cpu.processor.halted = false := by
      refine Bool.not_eq_true _ ▸ fun hhalted => ?_
      exact nomatch (h.stopped hhalted).1.symm.trans hrunning
    have hslept : Rig.Settled { rig with host := (env.sleep rig.host d).1 } :=
      ⟨h.settled.halted, h.settled.reports⟩
    have hserved := hslept.served c.dispatched (env.sleep rig.host d).2
    have hstill : (Rig.served (fun _ => true) { rig with host := (env.sleep rig.host d).1 }
        c.dispatched (env.sleep rig.host d).2).cpu.processor.halted = false :=
      (congrArg Processor.halted (Processor.serve_frame _ rig.cpu.processor)).trans hrun
    exact ⟨_, _, run_sleep (lists_logged env) env d c log rig,
      .of_running hserved h.found hstill, fun _ => .of_running hserved h.found hstill⟩
  exhausted := fun _ h => h

variable [Sub τ]

/-- Starting the clock of a machine whose processor runs is orderly, however it ends. -/
theorem leaves_start_orderly (env : Environment τ σ ε) (fuel : Nat) :
    Clock.Leaves (fun s => s.2.2.cpu.processor.halted = false ∧ Orderly env s) (Orderly env)
      (fun _ => Orderly env) (Clock.start (clockHost env).logged fuel) := by
  rintro ⟨c, log, rig⟩ ⟨hrun, h⟩
  -- the loop may have been left running or not; afterwards the clock does not run
  have hidled {Q : Clock τ Beat × (Clock.Log Beat (Rig σ) × Rig σ) → Prop}
      (hQ : ∀ s, Q s → Orderly env s) {s : Clock τ Beat × (Clock.Log Beat (Rig σ) × Rig σ)}
      (hs : Clock.Idled Q s) : Orderly env s := by
    obtain ⟨running, hq, hidle⟩ := hs
    have horderly := hQ _ hq
    exact ⟨horderly.settled, horderly.found, fun hhalted => ⟨hidle, (horderly.stopped hhalted).2⟩,
      horderly.last⟩
  cases hrunning : c.running with
  | true =>
    rw [Clock.start, Clock.startWith, if_pos hrunning]
    exact h
  | false =>
    have hleft := Clock.leaves_start (upholds_orderly env) fuel (c, (log, rig))
      ⟨hrunning, .of_running (h.settled.told _) h.found hrun⟩
    revert hleft
    cases Clock.start (clockHost env).logged fuel (c, (log, rig)) with
    | ok u t => exact hidled fun s hs => hs.1
    | error i t => exact hidled fun s hs => hs

/-- **A run is orderly** if it finds the processor running. -/
theorem orderly_run (env : Environment τ σ ε) (fuel : Nat) {m : Machine τ σ}
    (hsettled : m.rig.Settled) (hrun : m.rig.cpu.processor.halted = false) :
    Orderly env ((m.run env fuel).1.clock, (m.firings env fuel, (m.run env fuel).1.rig)) := by
  let P (s : Clock τ Beat × (Clock.Log Beat (Rig σ) × Rig σ)) : Prop :=
    s.2.2.cpu.processor.halted = false ∧ Orderly env s
  -- the sources are added, or refused, while the processor runs
  have hadded (c d : Clock τ Beat) (w : Clock.Log Beat (Rig σ) × Rig σ) (h : P (c, w)) : P (d, w) :=
    ⟨h.1, .of_running h.2.settled h.2.found h.1⟩
  have hstarted : Clock.Leaves P (Orderly env) (fun _ => Orderly env)
      ((Clock.Routine.start .done).run (clockHost env).logged
        (Clock.runPending (clockHost env).logged fuel) (Clock.start (clockHost env).logged fuel)) :=
    (leaves_start_orderly env fuel).bind (f := fun _ => pure ()) fun _ s hs => hs
  have hsources : Clock.Leaves P (Orderly env) (fun _ => Orderly env)
      ((Clock.Routine.add (source .tick m.tickInterval)
          (.add (source .timer m.timerInterval) (.start .done))).run (clockHost env).logged
        (Clock.runPending (clockHost env).logged fuel) (Clock.start (clockHost env).logged fuel)) :=
    Clock.leaves_add (fun c d w h _ => hadded c d w h) (fun _ _ h => h.2)
      (Clock.leaves_add (fun c d w h _ => hadded c d w h) (fun _ _ h => h.2) hstarted)
  have hstep : Clock.performLogged (clockHost env) fuel (runTask m.tickInterval m.timerInterval)
      (m.clock, ([], m.rig)) = (Clock.Routine.add (source .tick m.tickInterval)
          (.add (source .timer m.timerInterval) (.start .done))).run (clockHost env).logged
        (Clock.runPending (clockHost env).logged fuel) (Clock.start (clockHost env).logged fuel)
        (m.clock, ([], m.rig)) := by
    show Clock.Routine.run (clockHost env).logged _ _ (Clock.Routine.beside _
      (if m.rig.cpu.processor.halted then .done
        else addSources m.tickInterval m.timerInterval (.start .done) : Task τ σ ε)) _ = _
    rw [hrun]
    rfl
  rw [← stateLeft_logged, hstep]
  exact hsources.stateLeft ⟨hrun, .of_running hsettled (fun _ he => nomatch he) hrun⟩

/-! ## Afterwards -/

/-- **At rest:** a machine differs from an earlier one in the pending lines at most, and its memory is
    the one given; its clock and its host are as they were, and nothing more was put out or reported. -/
structure Rests (m after : Machine τ σ) (memory : Memory) : Prop where
  cpu : after.rig.cpu = m.rig.cpu.withProcessor { m.rig.cpu.processor with
    registers := m.rig.cpu.processor.registers.set .status
      (after.rig.cpu.processor.registers.get .status)
    memory := memory }
  clock : after.clock = m.clock
  host : after.rig.host = m.rig.host
  visible : after.rig.visible = m.rig.visible

end Machine

/-- **What an action by itself makes of a memory:** a write stores its byte, and a program file its
    image, as far as they can. -/
def MachineAction.stored (memory : Memory) : MachineAction → Memory
  | .poke a value => (memory.write a value).toOption.getD memory
  | .load bytes name => (loadFile bytes 0 name memory).memory
  | .tick | .run _ | .raise _ | .timer => memory

/-- Whether an action makes the processor or the clock work. -/
def MachineAction.works : MachineAction → Bool
  | .tick | .run _ => true
  | .poke .. | .raise _ | .timer | .load .. => false

namespace Machine

variable {env : Environment τ σ ε} {m after : Machine τ σ}

theorem Rests.refl (m : Machine τ σ) : m.Rests m m.rig.cpu.processor.memory where
  cpu := by
    rw [Registers.set_eq_self rfl]
    rfl
  clock := rfl
  host := rfl
  visible := rfl

theorem Rests.trans {later : Machine τ σ} {memory memory' : Memory} (h : m.Rests after memory)
    (h' : after.Rests later memory') : m.Rests later memory' where
  cpu := by
    have hlater := h'.cpu
    generalize later.rig.cpu.processor.registers.get .status = b at hlater ⊢
    rw [hlater, h.cpu]
    simp [Cpu.withProcessor]
  clock := h'.clock.trans h.clock
  host := h'.host.trans h.host
  visible := h'.visible.trans h.visible

/-- The processor that rests has halted if it had before. -/
theorem Rests.halted {memory : Memory} (h : m.Rests after memory) :
    after.rig.cpu.processor.halted = m.rig.cpu.processor.halted := by
  rw [h.cpu]
  rfl

theorem Rests.memory {memory : Memory} (h : m.Rests after memory) :
    after.rig.cpu.processor.memory = memory := by
  rw [h.cpu]
  rfl

/-- Replacing the processor by one that differs in the pending lines and in memory at most. -/
theorem rests_withCpu {q : Processor} {memory : Memory}
    (hq : q = { m.rig.cpu.processor with
      registers := m.rig.cpu.processor.registers.set .status (q.registers.get .status)
      memory := memory }) : m.Rests (m.withCpu (m.rig.cpu.withProcessor q)) memory where
  cpu := congrArg m.rig.cpu.withProcessor hq
  clock := rfl
  host := rfl
  visible := rfl

/-- One more pending line. -/
theorem rests_withPending (m : Machine τ σ) (line : Register) :
    m.Rests (m.withCpu (m.rig.cpu.withProcessor (m.rig.cpu.processor.withPending line)))
      m.rig.cpu.processor.memory :=
  rests_withCpu (by simp [Processor.withPending, Processor.withRegister])

/-- Another memory. -/
theorem rests_withMemory (m : Machine τ σ) (memory : Memory) :
    m.Rests (m.withCpu (m.rig.cpu.withProcessor { m.rig.cpu.processor with memory := memory }))
      memory :=
  rests_withCpu (by rw [Registers.set_eq_self rfl])

variable [Add τ] [Sub τ] [Zero τ] [LE τ] [LT τ] [DecidableLE τ] [DecidableLT τ]

/-- **What makes nothing work** leaves a machine at rest. -/
theorem rests_act_of_not_works (m : Machine τ σ) {a : MachineAction} (ha : a.works = false) :
    m.Rests (m.act env a).1 (a.stored m.rig.cpu.processor.memory) := by
  cases a with
  | tick | run => cases ha
  | poke a v =>
    rw [act, actBy, MachineAction.stored, Cpu.poke]
    cases m.rig.cpu.processor.memory.write a v with
    | error e => exact .refl m
    | ok memory => exact m.rests_withMemory memory
  | raise line =>
    rw [act, actBy, MachineAction.stored, Cpu.raise, Processor.raise]
    cases register? line with
    | none => exact .refl m
    | some k => exact m.rests_withPending k
  | timer => exact m.rests_withPending Cpu.timerLine
  | load bytes name =>
    have hstored := m.rests_withMemory (loadFile bytes 0 name m.rig.cpu.processor.memory).memory
    rw [act, actBy, MachineAction.stored, load]
    split
    · -- what is told of a loaded program is not visible
      refine ⟨hstored.cpu, rfl, rfl, ?_⟩
      rw [← hstored.visible]
      show Rig.visible (Rig.did _ _) = _
      rw [Rig.visible_did]
      exact List.append_nil _
    · exact hstored

/-- A machine that has halted is not run. -/
theorem run_of_halted (env : Environment τ σ ε) (fuel : Nat)
    (h : m.rig.cpu.processor.halted = true) : m.run env fuel = (m, none) := by
  have hstep : Clock.perform (clockHost env) fuel (runTask m.tickInterval m.timerInterval)
      (m.clock, m.rig) = .ok () (m.clock, m.rig) := by
    show Clock.Routine.run (clockHost env) _ _ (if m.rig.cpu.processor.halted then .done
      else addSources m.tickInterval m.timerInterval (.start .done) : Task τ σ ε) _ = _
    rw [h]
    rfl
  rw [run, perform, hstep]

/-- Nothing is fired on a machine that has halted. -/
theorem firings_of_halted (env : Environment τ σ ε) (fuel : Nat)
    (h : m.rig.cpu.processor.halted = true) : m.firings env fuel = [] := by
  have hstep : Clock.performLogged (clockHost env) fuel (runTask m.tickInterval m.timerInterval)
      (m.clock, ([], m.rig)) = .ok () (m.clock, ([], m.rig)) := by
    show Clock.Routine.run (clockHost env).logged _ _ (Clock.Routine.beside _
      (if m.rig.cpu.processor.halted then .done
        else addSources m.tickInterval m.timerInterval (.start .done) : Task τ σ ε)) _ = _
    rw [h]
    rfl
  rw [firings, Clock.firings, hstep]
  rfl

/-- **Every action leaves a machine that has halted at rest.** -/
theorem rests_act (h : m.rig.cpu.processor.halted = true) (env : Environment τ σ ε)
    (a : MachineAction) : m.Rests (m.act env a).1 (a.stored m.rig.cpu.processor.memory) := by
  cases a with
  | tick =>
    rw [act, actBy, perform_tick, Rig.ticked_of_halted h, Cpu.tick_of_halted _ h]
    exact .refl m
  | run fuel =>
    rw [act, actBy, run_of_halted env fuel h]
    exact .refl m
  | poke | raise | timer | load => exact m.rests_act_of_not_works rfl

/-- **After it has halted** a machine rests, whatever is done to it. -/
theorem rests_history (h : m.rig.cpu.processor.halted = true) (env : Environment τ σ ε)
    (actions : List MachineAction) : m.Rests (m.history (act env) actions).1
      (actions.foldl MachineAction.stored m.rig.cpu.processor.memory) := by
  induction actions generalizing m with
  | nil => exact .refl m
  | cons a rest ih =>
    have hstep := rests_act h env a
    have hrest := ih (hstep.halted.trans h)
    rw [hstep.memory] at hrest
    exact hstep.trans hrest

/-! ## Histories -/

/-- **A machine is settled** if its fault has halted it and is the only one that was reported, and if
    its clock is stopped once it has halted. -/
structure Settled (m : Machine τ σ) : Prop where
  rig : m.rig.Settled
  stopped : m.rig.cpu.processor.halted = true → Stopped m.clock

omit [Add τ] [Sub τ] [Zero τ] [LE τ] [LT τ] [DecidableLE τ] [DecidableLT τ] in
/-- A machine at rest stays settled. -/
theorem Settled.of_rests {memory : Memory} (h : m.Settled) (hrests : m.Rests after memory) :
    after.Settled where
  rig := by
    have hfault : after.rig.cpu.fault = m.rig.cpu.fault := by rw [hrests.cpu]; rfl
    refine ⟨fun hsome => ?_, ?_⟩
    · rw [hrests.halted]
      exact h.rig.halted (hfault ▸ hsome)
    · rw [Rig.reports_eq, hrests.visible, ← Rig.reports_eq, hfault]
      exact h.rig.reports
  stopped := by
    intro hhalted
    rw [hrests.clock]
    exact h.stopped (hrests.halted.symm.trans hhalted)

/-- **Every action keeps a machine settled.** -/
theorem Settled.act (h : m.Settled) (env : Environment τ σ ε) (a : MachineAction) :
    (m.act env a).1.Settled := by
  cases hhalted : m.rig.cpu.processor.halted with
  | true => exact h.of_rests (rests_act hhalted env a)
  | false =>
    cases a with
    | tick =>
      have hbefore : Orderly env (m.clock, ([], m.rig)) :=
        .of_running h.rig (fun _ he => nomatch he) hhalted
      have hticked := hbefore.tick hhalted m.clock m.clock.dispatched
      rw [act_tick]
      exact ⟨hticked.settled, hticked.stopped⟩
    | run fuel =>
      have horderly := orderly_run env fuel h.rig hhalted
      exact ⟨horderly.settled, horderly.stopped⟩
    | poke | raise | timer | load => exact h.of_rests (m.rests_act_of_not_works rfl)

/-- **Halting is terminal and a fault is reported exactly once.**  Take a machine whose processor runs,
    without a fault and without anything done to the outside so far, on any clock, and let a host tick
    it, run it, request interrupts, let the timer fire, write into its memory and load programs in any
    order.

    1. If there is a fault, the processor has halted.
    2. What was reported is the text of the fault if there is one, and nothing otherwise.
    3. No firing of any run finds the processor halted or with a fault, and if the last one has halted
       it, the run leaves what that tick has left.
    4. Once the processor has halted, whatever the host does next leaves the machine at rest, with the
       memory that its writes and loads alone would have made. -/
theorem halting_is_terminal (env : Environment τ σ ε) (m : Machine τ σ)
    (hrun : m.rig.cpu.processor.halted = false) (hfault : m.rig.cpu.fault = none)
    (heffects : m.rig.effects = #[]) (actions : List MachineAction) :
    let after (part : List MachineAction) : Machine τ σ := (m.history (act env) part).1
    ((after actions).rig.cpu.fault.isSome → (after actions).rig.cpu.processor.halted = true) ∧
    (after actions).rig.reports = ((after actions).rig.cpu.fault.map Fault.message).toList ∧
    (∀ before fuel later, actions = before ++ .run fuel :: later →
      (∀ e ∈ (after before).firings env fuel,
        e.2.cpu.processor.halted = false ∧ e.2.cpu.fault = none) ∧
      ((after before).rig.cpu.processor.halted = false →
        ((after before).run env fuel).1.rig.cpu.processor.halted = true →
        ∃ earlier rig n, (after before).firings env fuel = earlier ++ [(.tick, rig)] ∧
          ((after before).run env fuel).1.rig = rig.ticked env.output n)) ∧
    ∀ before later, actions = before ++ later →
      (after before).rig.cpu.processor.halted = true →
      (after before).Rests (after actions)
        (later.foldl MachineAction.stored (after before).rig.cpu.processor.memory) := by
  intro after
  have hsettled (part : List MachineAction) : (after part).Settled := by
    refine history_keeps (fun m a h => h.act env a) ⟨⟨?_, ?_⟩, ?_⟩ part
    · rw [hfault]
      exact nofun
    · rw [Rig.reports, heffects, hfault]
      rfl
    · rw [hrun]
      exact nofun
  refine ⟨(hsettled actions).rig.halted, (hsettled actions).rig.reports, ?_, ?_⟩
  · intro before fuel later _
    cases hhalted : (after before).rig.cpu.processor.halted with
    | true =>
      rw [firings_of_halted env fuel hhalted]
      exact ⟨fun _ he => (nomatch he), nofun⟩
    | false =>
      have horderly := orderly_run env fuel (hsettled before).rig hhalted
      exact ⟨horderly.found, fun _ => horderly.last⟩
  · rintro before later rfl hhalted
    show (after before).Rests (m.history (act env) (before ++ later)).1 _
    rw [fst_history_append]
    exact rests_history hhalted env later

/-- A program that runs into a byte which is no instruction, on a machine that is then ticked, written
    to, asked for an interrupt and run again. -/
theorem halting_is_terminal_of_illegal_opcode :
    let env : Environment Int Int String := ⟨.silent Int String, id, fun s d => (s + d, [])⟩
    let m : Machine Int Int := {
      rig := {
        cpu := { processor := { memory := .holding [0x04, 0x00, 0x05, 0xff] } }
        host := 0 }
      tickInterval := 2
      timerInterval := 3 }
    let before : List MachineAction := [.tick, .run 9]
    let later : List MachineAction := [.tick, .poke 9 7, .raise 2, .run 9, .poke 300 1]
    let halted := (m.history (act env) before).1
    let after := (m.history (act env) (before ++ later)).1
    after.rig.cpu.fault = some (.illegalOpcode 3 0xff) ∧
    after.rig.reports = [(Fault.illegalOpcode 3 0xff).message] ∧
    (∀ e ∈ (m.history (act env) [.tick]).1.firings env 9, e.2.cpu.processor.halted = false) ∧
    halted.Rests after (later.foldl MachineAction.stored halted.rig.cpu.processor.memory) := by
  intro env m before later halted after
  obtain ⟨_, hreports, hruns, hrests⟩ := halting_is_terminal env m rfl rfl rfl (before ++ later)
  have hfault : after.rig.cpu.fault = some (.illegalOpcode 3 0xff) := by decide +kernel
  refine ⟨hfault, ?_, fun e he => ((hruns [.tick] 9 later rfl).1 e he).1,
    hrests before later rfl (by decide +kernel)⟩
  rw [hreports, show (m.history (act env) (before ++ later)).1.rig.cpu.fault = _ from hfault]
  rfl

end Machine

end Ls8
