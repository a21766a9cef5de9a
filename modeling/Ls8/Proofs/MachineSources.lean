import Ls8.Proofs.Clock.Plain
import Ls8.Proofs.Halting
import Ls8.Proofs.MachineEnd
import Ls8.Proofs.MachineTimetable

/-
  How many sources a machine has.

  A run adds its two sources to whatever the clock has.  It relies on the clock having no events, and
  leaves it so if it returns; but a run that is interrupted by its host leaves its sources behind, and
  the next run adds two more.

  1. **Moments.**  In the course of an action the clock can be seen before it, after it, and whenever a
     routine has control in between (`Moment`).  A tick by hand adds no source; a run adds one for the
     ticks and one for the timer, and none while it goes on (`scheduled_moment`).

  2. **The crux** is the end of a run.  One that returns has found the clock stopped or without events,
     and a clock is stopped only by dropping its events (`events_run`).

  3. **Rates.**  If the clock has one source of each beat, the next firing is due one interval after the
     last one was, or later.  So if time does not go back, there have been at most as many firings of
     a beat as intervals have passed (`Paced`).

  Main statement: `interrupted_runs_leave_sources`.
-/

namespace Ls8

variable {τ σ ε : Type}

/-! ## Sources of a clock -/

namespace Clock

/-- **How many sources of a beat are scheduled.** -/
def scheduled (c : Clock τ Beat) (b : Beat) : Nat :=
  c.events.toList.countP fun e => e.source.command = b

theorem scheduled_of_empty {c : Clock τ Beat} (h : c.events = .empty) (b : Beat) :
    c.scheduled b = 0 := by
  rw [scheduled, h]
  rfl

/-- A clock without sources of any beat has no events. -/
theorem events_eq_empty_of_scheduled {c : Clock τ Beat} (h : ∀ b, c.scheduled b = 0) :
    c.events = .empty := by
  cases hevents : c.events with
  | empty => rfl
  | node l e r =>
    have hmem : e ∈ c.events.toList := by
      rw [hevents, Heap.toList]
      exact List.mem_cons_self
    have hnone := List.countP_eq_zero.mp (h e.source.command) e hmem
    exact absurd (decide_eq_true rfl) hnone

section Scheduling
variable [LE τ] [LT τ] [DecidableLE τ] [DecidableLT τ]

theorem scheduled_schedule (c : Clock τ Beat) (source : Source τ Beat) (due : τ) (b : Beat) :
    (c.schedule source due).scheduled b = c.scheduled b + if source.command = b then 1 else 0 := by
  have hevents := (events_schedule c source due).countP_eq fun e => decide (e.source.command = b)
  rw [scheduled, hevents, List.countP_cons, scheduled]
  simp

variable [Add τ]

/-- **Taking out an event and scheduling it again** leaves as many sources. -/
theorem scheduled_reschedule {c : Clock τ Beat} {e : Event τ Beat} {rest : Heap (Event τ Beat)}
    (hpop : c.events.pop? Event.before = some (e, rest)) (now : τ) (b : Beat) :
    (c.reschedule e rest now).scheduled b = c.scheduled b := by
  have hpopped := (Heap.toList_of_pop? hpop).countP_eq fun e => decide (e.source.command = b)
  have hrest : ({ c with events := rest } : Clock τ Beat).scheduled b =
      rest.toList.countP fun e => decide (e.source.command = b) := rfl
  rw [reschedule, scheduled_schedule, hrest, scheduled, ← hpopped, List.countP_cons]
  simp

/-- **What happens adds no sources.** -/
theorem guards_scheduled {ω : Type} (host : Host τ Beat ω ε) (later : ω → ω → Prop) (b : Beat)
    (n : Nat) : host.Guards later fun s => s.1.scheduled b ≤ n where
  write _ _ _ _ _ h := h
  stop _ _ _ := Nat.zero_le _
  fire _ _ _ _ _ hpop _ _ h := (scheduled_reschedule hpop _ b).le.trans h
  count _ _ h := h
  sleep _ _ _ h := h

end Scheduling

end Clock

/-! ## A machine as a plain host -/

/-- **A notion of later** that a host respects, whatever the machine has it do. -/
structure Environment.Proceeds [Zero τ] [LT τ] (env : Environment τ σ ε) (later : σ → σ → Prop) :
    Prop where
  refl : ∀ s, later s s
  trans : ∀ {s t u}, later s t → later t u → later s u
  deliver : ∀ s text, later s (env.output.deliver s text).1
  sleep : ∀ s d, 0 < d → later s (env.sleep s d).1

namespace Machine

section Plain
variable [Zero τ] [LT τ]
variable {env : Environment τ σ ε} {later : σ → σ → Prop} {rig : Rig σ}

theorem plain_carryOut (h : env.Proceeds later) (failure : Option ε) (effects : List Effect) :
    (carryOut failure effects : Task τ σ ε).Plain (clockHost env)
      (fun rig rig' => later rig.host rig'.host) rig := by
  induction effects generalizing rig with
  | nil => cases failure <;> trivial
  | cons e rest ih =>
    cases e with
    | stopClock => exact fun n => ih
    | output | report | diagnostic => exact ⟨h.refl _, ih⟩

theorem plain_tick (h : env.Proceeds later) :
    (tick env).Plain (clockHost env) (fun rig rig' => later rig.host rig'.host) rig := by
  refine ⟨?_, plain_carryOut h _ _⟩
  show later rig.host (rig.cpu.tick env.output rig.host).host
  rcases Cpu.host_tick env.output rig.cpu rig.host with hsame | ⟨text, htext⟩
  · rw [hsame]
    exact h.refl _
  · rw [htext]
    exact h.deliver _ _

theorem plain_serve (h : env.Proceeds later) (requests : List (Request ε)) :
    (serve requests : Task τ σ ε).Plain (clockHost env)
      (fun rig rig' => later rig.host rig'.host) rig := by
  induction requests generalizing rig with
  | nil => trivial
  | cons r rest ih =>
    cases r with
    | stopClock => exact fun n => ih
    | raise line =>
      rw [serve, Clock.Routine.Plain]
      cases rig.cpu.raise line with
      | ok cpu => exact ⟨h.refl _, ih⟩
      | error e => trivial
    | fault | fail => trivial

/-- **A machine uses its clock for nothing but stopping it.** -/
theorem plain_clockHost (h : env.Proceeds later) :
    (clockHost env).Plain fun rig rig' => later rig.host rig'.host where
  refl _ := h.refl _
  trans := h.trans
  fire beat rig := by
    cases beat with
    | tick => exact plain_tick h
    | timer => exact ⟨h.refl _, trivial⟩
  sleep d rig hd := ⟨h.sleep _ _ hd, plain_serve h _⟩
  told _ _ := h.refl _

/-- Any host proceeds somehow. -/
theorem proceeds_anyhow (env : Environment τ σ ε) : env.Proceeds fun _ _ => True :=
  ⟨fun _ => trivial, fun _ _ => trivial, fun _ _ => trivial, fun _ _ _ => trivial⟩

end Plain

variable [Add τ] [Sub τ] [Zero τ] [LE τ] [LT τ] [DecidableLE τ] [DecidableLT τ]
variable {env : Environment τ σ ε} {m : Machine τ σ}

/-! ## Moments -/

/-- **The clock at a moment of an action:** before it, after it, or whenever a routine has control in
    the course of it. -/
inductive Moment (env : Environment τ σ ε) (m : Machine τ σ) : MachineAction → Clock τ Beat → Prop where
  | before {a} : Moment env m a m.clock
  | after {a} : Moment env m a (m.act env a).1.clock
  | running {fuel t} (h : Clock.Control (clockHost env) fuel
      (.routine (runTask m.tickInterval m.timerInterval)) (m.clock, ([], m.rig)) t) :
    Moment env m (.run fuel) t.1
  | ticking {t} (h : Clock.Control (clockHost env) 0 (.routine (tick env)) (m.clock, ([], m.rig)) t) :
    Moment env m .tick t.1

omit [Sub τ] [Zero τ] in
/-- The two sources that a run adds are one of each beat. -/
theorem scheduled_provided (env : Environment τ σ ε) (m : Machine τ σ) (b : Beat) :
    (m.provided env).scheduled b = m.clock.scheduled b + 1 := by
  rw [provided, Clock.scheduled_schedule, Clock.scheduled_schedule]
  cases b <;> rfl

omit [Sub τ] in
/-- A source that is accepted is due one interval later. -/
theorem eq_schedule_of_add {c d : Clock τ Beat} {now : τ} {source : Clock.Source τ Beat}
    (h : c.add now source = .ok d) : d = c.schedule source (now + source.interval) := by
  rw [Clock.add] at h
  split at h
  · cases h
  · exact (Except.ok.inj h).symm

/-- **A run has at most one source of a beat more** than it finds, whenever a routine has control. -/
theorem scheduled_of_control_runTask (hidle : m.clock.running = false) {fuel : Nat} {t : State τ σ}
    (h : Clock.Control (clockHost env) fuel (.routine (runTask m.tickInterval m.timerInterval))
      (m.clock, ([], m.rig)) t) (b : Beat) : t.1.scheduled b ≤ m.clock.scheduled b + 1 := by
  have hplain := plain_clockHost (proceeds_anyhow env)
  have hboth := (scheduled_provided env m b).le
  have hguards := Clock.guards_scheduled (clockHost env) (fun _ _ => True) b
    (m.clock.scheduled b + 1)
  rw [runTask] at h
  cases h with
  | here => exact Nat.le_succ _
  | read h =>
    dsimp only at h
    split at h
    · cases h
      exact Nat.le_succ _
    · rw [addSources] at h
      cases h with
      | here => exact Nat.le_succ _
      | add hadd h =>
        obtain rfl := eq_schedule_of_add hadd
        cases h with
        | here =>
          rw [Clock.scheduled_schedule]
          exact Nat.add_le_add_left (by split <;> decide) _
        | add hadd h =>
          obtain rfl := eq_schedule_of_add hadd
          cases h with
          | here => exact hboth
          | starts _ h => exact h.guarded hplain hguards trivial hboth
          | started hdone h =>
            cases h
            obtain ⟨_, hleft, _⟩ := Clock.of_stateLeft hdone
              (Clock.guarded_of_start hplain hguards hidle hboth)
            exact hleft

/-! ## Actions -/

/-- **A run with a journal** ends as the run does without. -/
theorem run_cases (env : Environment τ σ ε) (fuel : Nat) (m : Machine τ σ) :
    (∃ t, Clock.performJournaled (clockHost env) fuel (runTask m.tickInterval m.timerInterval)
        (m.clock, ([], m.rig)) = .ok () t ∧
      m.run env fuel = ({ m with clock := t.1, rig := t.2.2 }, none)) ∨
    ∃ i t, Clock.performJournaled (clockHost env) fuel (runTask m.tickInterval m.timerInterval)
        (m.clock, ([], m.rig)) = .error i t ∧
      m.run env fuel = ({ m with clock := t.1, rig := t.2.2 }, some i) := by
  have hsame := Clock.projects_performJournaled (clockHost env) fuel
    (runTask m.tickInterval m.timerInterval) (m.clock, ([], m.rig))
  rw [run, perform, ← show _ = Clock.perform (clockHost env) fuel _ (m.clock, m.rig) from hsame]
  cases Clock.performJournaled (clockHost env) fuel (runTask m.tickInterval m.timerInterval)
      (m.clock, ([], m.rig)) with
  | ok u t => exact .inl ⟨t, rfl, rfl⟩
  | error i t => exact .inr ⟨i, t, rfl, rfl⟩

/-- **After a run that returns,** on a processor that had not halted, there are no events. -/
theorem events_run (htick : ¬ m.tickInterval ≤ 0) (htimer : ¬ m.timerInterval ≤ 0)
    (hrun : m.rig.cpu.processor.halted = false) (hidle : m.clock.running = false) {fuel : Nat}
    (h : (m.run env fuel).2 = none) : (m.run env fuel).1.clock.events = .empty := by
  rcases run_cases env fuel m with ⟨t, hended, hresult⟩ | ⟨i, t, _, hresult⟩
  · rw [performJournaled_runTask env fuel htick htimer hrun] at hended
    rw [hresult]
    have hstopped : (m.provided env).running = false := hidle
    exact Clock.events_of_start (plain_clockHost (proceeds_anyhow env)) hstopped hended
  · rw [hresult] at h
    cases h

/-- **A run leaves at most one source of a beat more** than it has found. -/
theorem scheduled_run (htick : ¬ m.tickInterval ≤ 0) (htimer : ¬ m.timerInterval ≤ 0)
    (hidle : m.clock.running = false) (fuel : Nat) (b : Beat) :
    (m.run env fuel).1.clock.scheduled b ≤ m.clock.scheduled b + 1 := by
  by_cases hhalted : m.rig.cpu.processor.halted = true
  · rw [run_of_halted env fuel hhalted]
    exact Nat.le_succ _
  · have hstart := performJournaled_runTask env fuel htick htimer (Bool.eq_false_iff.mpr hhalted)
    have hstopped : (m.provided env).running = false := hidle
    obtain ⟨_, hleft, _⟩ := Clock.guarded_of_start (plain_clockHost (proceeds_anyhow env))
      (Clock.guards_scheduled _ _ b (m.clock.scheduled b + 1)) (s := (m.additions, m.rig)) hstopped
      (scheduled_provided env m b).le
    rw [← hstart] at hleft
    rcases run_cases env fuel m with ⟨t, hended, hresult⟩ | ⟨i, t, hended, hresult⟩
    all_goals
      rw [hended] at hleft
      rw [hresult]
      exact hleft

/-- **A machine between two actions:** its clock is not running, and would accept its sources. -/
structure Ready (m : Machine τ σ) : Prop where
  idle : m.clock.running = false
  tick : ¬ m.tickInterval ≤ 0
  timer : ¬ m.timerInterval ≤ 0

/-- Running a machine does not leave its clock running. -/
theorem running_run (hidle : m.clock.running = false) (env : Environment τ σ ε) (fuel : Nat) :
    (m.run env fuel).1.clock.running = false := by
  rw [run, fst_perform]
  exact Clock.sustains_perform (Clock.host_sustains_idle (clockHost env))
    (fun _ _ hpending hstarted => Clock.sustains_idle _ _ hpending hstarted) fuel (m.clock, m.rig) hidle

theorem Ready.act (h : m.Ready) (env : Environment τ σ ε) (a : MachineAction) :
    (m.act env a).1.Ready := by
  cases a with
  | tick =>
    rw [act_tick]
    refine ⟨?_, h.tick, h.timer⟩
    cases decide (Effect.stopClock ∈ (m.rig.cpu.tick env.output m.rig.host).effects) with
    | true => rfl
    | false => exact h.idle
  | run fuel =>
    have hrun := running_run h.idle env fuel
    have hkept : (m.act env (.run fuel)).1 = (m.run env fuel).1 := rfl
    rw [hkept]
    rw [run, fst_perform] at hrun ⊢
    exact ⟨hrun, h.tick, h.timer⟩
  | poke | raise | timer => exact ⟨h.idle, h.tick, h.timer⟩
  | load bytes name =>
    have hkept : (m.act env (.load bytes name)).1 = (m.load bytes name).1 := rfl
    rw [hkept, load]
    split <;> exact ⟨h.idle, h.tick, h.timer⟩

/-- The action was a run, and it was interrupted: the host has failed, or there was no fuel left. -/
def Interrupted : MachineAction × Answer ε → Bool
  | (.run _, .worked (some _)) => true
  | _ => false

/-- **How many runs of a history were interrupted.** -/
def interruptedRuns (env : Environment τ σ ε) (m : Machine τ σ) (actions : List MachineAction) : Nat :=
  (actions.zip (m.history (act env) actions).2).countP Interrupted

/-- **Only a run that is interrupted** leaves more sources than it has found, one more of each beat. -/
theorem scheduled_act (h : m.Ready) (env : Environment τ σ ε) (a : MachineAction) (b : Beat) :
    (m.act env a).1.clock.scheduled b ≤
      m.clock.scheduled b + if Interrupted (a, (m.act env a).2) then 1 else 0 := by
  cases a with
  | tick =>
    rw [act_tick]
    cases decide (Effect.stopClock ∈ (m.rig.cpu.tick env.output m.rig.host).effects) with
    | true => exact Nat.zero_le _
    | false => exact Nat.le_add_right _ _
  | run fuel =>
    show (m.run env fuel).1.clock.scheduled b ≤
      m.clock.scheduled b + if Interrupted (.run fuel, .worked (m.run env fuel).2) then 1 else 0
    cases hended : (m.run env fuel).2 with
    | some i => exact scheduled_run h.tick h.timer h.idle fuel b
    | none =>
      by_cases hhalted : m.rig.cpu.processor.halted = true
      · rw [run_of_halted env fuel hhalted]
        exact Nat.le_add_right _ _
      · rw [Clock.scheduled_of_empty
          (events_run h.tick h.timer (Bool.eq_false_iff.mpr hhalted) h.idle hended)]
        exact Nat.zero_le _
  | poke | raise | timer | load =>
    rw [(m.rests_act_of_not_works rfl).clock]
    exact Nat.le_add_right _ _

/-- **Along a history** there are at most as many more sources of a beat as runs were interrupted. -/
theorem scheduled_history (h : m.Ready) (env : Environment τ σ ε) (actions : List MachineAction)
    (b : Beat) :
    (m.history (act env) actions).1.clock.scheduled b ≤
      m.clock.scheduled b + m.interruptedRuns env actions := by
  induction actions generalizing m with
  | nil => exact Nat.le_add_right _ _
  | cons a rest ih =>
    have hstep := scheduled_act h env a b
    have hrest := ih (h.act env a)
    have hcount : m.interruptedRuns env (a :: rest) = (m.act env a).1.interruptedRuns env rest +
        if Interrupted (a, (m.act env a).2) then 1 else 0 := List.countP_cons
    rw [fst_history_cons, hcount]
    omega

/-- At a moment of an action that is no run there are no more sources than before. -/
theorem scheduled_moment (a : MachineAction) (ha : ∀ fuel, a ≠ .run fuel) {c : Clock τ Beat}
    (h : m.Ready) (hc : Moment env m a c) (b : Beat) : c.scheduled b ≤ m.clock.scheduled b := by
  cases hc with
  | before => exact Nat.le_refl _
  | after =>
    have hstep := scheduled_act h env a b
    have hnone : Interrupted (a, (m.act env a).2) = false := by
      cases a with
      | run fuel => exact absurd rfl (ha fuel)
      | tick | poke | raise | timer | load => rfl
    rwa [hnone] at hstep
  | running => exact absurd rfl (ha _)
  | ticking hcontrol =>
    exact hcontrol.guarded (plain_clockHost (proceeds_anyhow env))
      (Clock.guards_scheduled _ _ b (m.clock.scheduled b)) (plain_tick (proceeds_anyhow env))
      (Nat.le_refl _)

/-- At a moment of a run there is at most one source more of each beat. -/
theorem scheduled_moment_of_run (h : m.Ready) {fuel : Nat} {c : Clock τ Beat}
    (hc : Moment env m (.run fuel) c) (b : Beat) : c.scheduled b ≤ m.clock.scheduled b + 1 := by
  cases hc with
  | before => exact Nat.le_succ _
  | after => exact scheduled_run h.tick h.timer h.idle fuel b
  | running hcontrol => exact scheduled_of_control_runTask h.idle hcontrol b

/-- When a run has added its sources there is one more of each beat. -/
theorem moment_provided (h : m.Ready) (hrun : m.rig.cpu.processor.halted = false) (fuel : Nat) :
    Moment env m (.run fuel) (m.provided env) := by
  have hadded : Clock.Control (clockHost env) fuel
      (.routine (addSources m.tickInterval m.timerInterval (.start .done)))
      (m.clock, ([], m.rig)) (m.provided env, (m.additions, m.rig)) :=
    .add (if_neg h.tick) (.add (if_neg h.timer) .here)
  have hbegun : Clock.Control (clockHost env) fuel
      (.routine (runTask m.tickInterval m.timerInterval))
      (m.clock, ([], m.rig)) (m.provided env, (m.additions, m.rig)) := by
    refine .read ?_
    dsimp only
    rwa [hrun, if_neg Bool.false_ne_true]
  exact .running hbegun

end Machine

/-! ## Rates -/

/-- **Exact times** are ordered, and adding an interval to them keeps their order. -/
structure ExactTimes (τ : Type) [Add τ] [LE τ] : Prop where
  refl : ∀ t : τ, t ≤ t
  trans : ∀ {s t u : τ}, s ≤ t → t ≤ u → s ≤ u
  add_right : ∀ {s t : τ} (d : τ), s ≤ t → s + d ≤ t + d

theorem exactTimes_rat : ExactTimes ℚ :=
  ⟨fun _ => le_refl _, fun h h' => h.trans h', fun d h => add_le_add_left h d⟩

/-- **Time does not go back** in a host, whatever the machine has it do. -/
def Environment.Forward [Zero τ] [LE τ] [LT τ] (env : Environment τ σ ε) : Prop :=
  env.Proceeds fun s t => env.now s ≤ env.now t

namespace Machine

/-- The interval of a beat. -/
def interval (m : Machine τ σ) : Beat → τ
  | .tick => m.tickInterval
  | .timer => m.timerInterval

/-- The firings of a journal, each with its time. -/
abbrev times (env : Environment τ σ ε) (journal : Clock.Journal τ Beat (Rig σ)) : List (Beat × τ) :=
  Clock.Journal.firings (fun rig => env.now rig.host) journal

/-- **How often a beat was fired.** -/
def fired (b : Beat) (firings : List (Beat × τ)) : Nat := firings.countP fun f => f.1 = b

theorem fired_snoc (b : Beat) (firings : List (Beat × τ)) (k : Beat) (t : τ) :
    fired b (firings ++ [(k, t)]) = fired b firings + if k = b then 1 else 0 := by
  rw [fired, List.countP_append, fired]
  simp [List.countP_cons]

/-- So many intervals later, one added after the other. -/
def intervalsLater [Add τ] (d : τ) (n : Nat) (t : τ) : τ := (· + d)^[n] t

theorem intervalsLater_succ [Add τ] (d : τ) (n : Nat) (t : τ) :
    intervalsLater d (n + 1) t = intervalsLater d n t + d :=
  Function.iterate_succ_apply' (· + d) n t

theorem intervalsLater_rat (d : ℚ) (n : Nat) (t : ℚ) : intervalsLater d n t = t + n * d := by
  induction n with
  | zero => simp [intervalsLater]
  | succ n ih =>
    rw [intervalsLater_succ, ih]
    push_cast
    ring

/-- **Firings keep to a rate** from a time on: the first one of a beat is not made before one interval
    has passed, the second one not before two have, and so on. -/
def KeepToRate [Add τ] [LE τ] (origin : τ) (interval : Beat → τ) (firings : List (Beat × τ)) : Prop :=
  ∀ before b t after, firings = before ++ (b, t) :: after →
    intervalsLater (interval b) (fired b before + 1) origin ≤ t

/-- **A clock and its journal keep to a rate:** so do the firings that have been made, and each source,
    of which there is one at most for a beat, is not due before its next firing may be made. -/
structure Paced [Add τ] [LE τ] (env : Environment τ σ ε) (origin : τ) (interval : Beat → τ)
    (s : State τ σ) : Prop where
  made : KeepToRate origin interval (times env s.2.1)
  single : ∀ b, s.1.scheduled b ≤ 1
  intervals : ∀ e ∈ s.1.events.toList, e.source.interval = interval e.source.command
  due : ∀ e ∈ s.1.events.toList,
    intervalsLater (interval e.source.command)
      (fired e.source.command (times env s.2.1) + 1) origin ≤ e.due

section Rates
variable [Add τ] [Zero τ] [LE τ] [LT τ] [DecidableLE τ] [DecidableLT τ]
variable {env : Environment τ σ ε} {origin : τ} {interval : Beat → τ}

omit [Zero τ] [LT τ] [DecidableLE τ] [DecidableLT τ] in
/-- What is no firing and leaves the events does not matter. -/
theorem Paced.congr {s t : State τ σ} (h : Paced env origin interval s)
    (hevents : t.1.events = s.1.events) (htimes : times env t.2.1 = times env s.2.1) :
    Paced env origin interval t := by
  obtain ⟨h1, h2, h3, h4⟩ := h
  constructor
  · rwa [htimes]
  · intro b
    rw [Clock.scheduled, hevents]
    exact h2 b
  · rwa [hevents]
  · rwa [hevents, htimes]

omit [Zero τ] [LT τ] [DecidableLE τ] [DecidableLT τ] in
/-- A clock without events keeps to a rate if its firings have. -/
theorem Paced.of_empty {s : State τ σ} (h : KeepToRate origin interval (times env s.2.1))
    (hempty : s.1.events = .empty) : Paced env origin interval s where
  made := h
  single b := by
    rw [Clock.scheduled_of_empty hempty]
    exact Nat.zero_le 1
  intervals := by
    rw [hempty]
    exact fun _ h => absurd h List.not_mem_nil
  due := by
    rw [hempty]
    exact fun _ h => absurd h List.not_mem_nil

omit [Zero τ] in
/-- **A firing keeps to the rate:** it was due, so it was not made too early, and the next one of that
    beat is due one interval later. -/
theorem Paced.fire (laws : ExactTimes τ) {c : Clock τ Beat}
    {journal : Clock.Journal τ Beat (Rig σ)} {rig : Rig σ} {e : Clock.Event τ Beat}
    {rest : Clock.Heap (Clock.Event τ Beat)} {now : τ}
    (h : Paced env origin interval (c, (journal, rig)))
    (hpop : c.events.pop? Clock.Event.before = some (e, rest)) (hdue : e.due ≤ now)
    (hnow : now ≤ env.now rig.host) :
    Paced env origin interval
      (c.reschedule e rest now, (journal ++ [.fired e.source.command rig], rig)) := by
  have hpopped := Clock.Heap.toList_of_pop? hpop
  have he : e ∈ c.events.toList := hpopped.mem_iff.mp List.mem_cons_self
  have hinterval := h.intervals e he
  have hold : ∀ x ∈ rest.toList, x ∈ c.events.toList := by
    intro x hx
    exact hpopped.mem_iff.mp (List.mem_cons_of_mem e hx)
  have hnext : ∀ x ∈ (c.reschedule e rest now).events.toList,
      x = ⟨Clock.nextDue e now, c.sequence, e.source⟩ ∨ x ∈ rest.toList := by
    intro x hx
    exact List.mem_cons.mp ((Clock.events_schedule _ _ _).mem_iff.mp hx)
  have htimes : times env (journal ++ [.fired e.source.command rig]) =
      times env journal ++ [(e.source.command, env.now rig.host)] := Clock.Journal.firings_snoc _ _ _
  constructor
  · dsimp only
    rw [htimes]
    intro before b t after heq
    rcases Clock.Journal.eq_or_of_snoc heq with ⟨rfl, hsame, _⟩ | ⟨more, _, hbefore⟩
    · obtain ⟨rfl, rfl⟩ := Prod.mk.inj hsame
      exact laws.trans (h.due e he) (laws.trans hdue hnow)
    · exact h.made before b t more hbefore
  · intro b
    rw [Clock.scheduled_reschedule hpop]
    exact h.single b
  · intro x hx
    rcases hnext x hx with rfl | hx
    · exact hinterval
    · exact h.intervals x (hold x hx)
  · dsimp only
    rw [htimes]
    intro x hx
    rcases hnext x hx with rfl | hx
    · have hlater := Clock.le_nextDue (laws.add_right e.source.interval hdue) (laws.refl _)
      rw [hinterval] at hlater
      rw [fired_snoc, if_pos rfl, intervalsLater_succ]
      exact laws.trans (laws.add_right _ (h.due e he)) hlater
    · -- there is no other source of the same beat
      have hother : e.source.command ≠ x.source.command := by
        intro hsame
        have hsingle := h.single e.source.command
        rw [Clock.scheduled, ← hpopped.countP_eq, List.countP_cons_of_pos (by simp)] at hsingle
        have hmore : 0 < rest.toList.countP fun x => x.source.command = e.source.command :=
          List.countP_pos_iff.mpr ⟨x, hx, by simp [hsame]⟩
        omega
      rw [fired_snoc, if_neg hother]
      exact h.due x (hold x hx)

omit [Zero τ] in
/-- **What happens on a machine's clock keeps to the rate,** if time does not go back. -/
theorem guards_paced (laws : ExactTimes τ) (env : Environment τ σ ε) (origin : τ)
    (interval : Beat → τ) :
    (clockHost env).Guards (fun rig rig' => env.now rig.host ≤ env.now rig'.host)
      (Paced env origin interval) where
  write _ _ _ _ _ h := h.congr rfl rfl
  stop c s h := by
    refine .of_empty ?_ rfl
    show KeepToRate origin interval (times env (s.1 ++ [.told (.stopped c.dispatched) s.2]))
    rw [times, Clock.Journal.firings_snoc_of_idle rfl]
    exact h.made
  fire _ _ _ _ _ hpop hnow hdue h := h.fire laws hpop hdue hnow
  count _ _ h := h.congr rfl rfl
  sleep c s d h := by
    refine h.congr rfl ?_
    show times env (s.1 ++ [.slept d s.2]) = times env s.1
    rw [times, Clock.Journal.firings_snoc]
    exact List.append_nil _

variable {m : Machine τ σ}

omit [Zero τ] in
/-- On a clock without events, the sources that a run adds are due one interval later. -/
theorem due_provided (hempty : m.clock.events = .empty) {e : Clock.Event τ Beat}
    (he : e ∈ (m.provided env).events.toList) :
    e.source.interval = m.interval e.source.command ∧
      e.due = env.now m.rig.host + m.interval e.source.command := by
  rcases List.mem_cons.mp ((Clock.events_schedule _ _ _).mem_iff.mp he) with rfl | he
  · exact ⟨rfl, rfl⟩
  · rcases List.mem_cons.mp ((Clock.events_schedule _ _ _).mem_iff.mp he) with rfl | he
    · exact ⟨rfl, rfl⟩
    · rw [hempty] at he
      exact absurd he List.not_mem_nil

omit [Zero τ] in
/-- A clock without events keeps to a rate when the sources of a run have been added. -/
theorem paced_provided (laws : ExactTimes τ) (hempty : m.clock.events = .empty) (n : Nat) :
    Paced env (env.now m.rig.host) m.interval
      ({ m.provided env with running := true },
        (clockHost env).journaled.told (.started n) (m.additions, m.rig)) where
  made := by
    intro before b t after heq
    have hnone : ([] : List (Beat × τ)) = before ++ (b, t) :: after := heq
    exact absurd hnone.symm (by simp)
  single b := by
    show (m.provided env).scheduled b ≤ 1
    rw [scheduled_provided, Clock.scheduled_of_empty hempty]
  intervals _ he := (due_provided hempty he).1
  due e he := by
    rw [(due_provided hempty he).2]
    exact laws.refl _

variable [Sub τ]

/-- **A run keeps to the rates of its sources** if it finds no events. -/
theorem keepToRate_run (laws : ExactTimes τ) (henv : env.Forward) (h : m.Ready)
    (hrun : m.rig.cpu.processor.halted = false) (hempty : m.clock.events = .empty) (fuel : Nat) :
    KeepToRate (env.now m.rig.host) m.interval (times env (m.journal env fuel)) := by
  have hstopped : (m.provided env).running = false := h.idle
  obtain ⟨_, hleft, _⟩ := Clock.guarded_of_start (plain_clockHost henv)
    (guards_paced laws env (env.now m.rig.host) m.interval) (s := (m.additions, m.rig)) hstopped
    (paced_provided laws hempty _)
  rw [Machine.journal, performJournaled_runTask env fuel h.tick h.timer hrun]
  exact hleft.made

end Rates

/-! ## The main statement -/

section Assembly
variable {memorySize traceCapacity : Int} {tickInterval timerInterval : τ} {host : σ}
variable {m : Machine τ σ}

/-- A machine is assembled with a new clock. -/
theorem exists_of_assemble
    (h : assemble memorySize tickInterval timerInterval traceCapacity host = .ok m) :
    ∃ memory trace, m = ofMemory memory tickInterval timerInterval trace host := by
  rw [assemble] at h
  cases hmemory : (Memory.create 0 memorySize).mapError AssemblyError.memory with
  | error e =>
    rw [hmemory] at h
    cases h
  | ok memory =>
    cases htrace : (Trace.Recorder.createIfPositive traceCapacity).mapError AssemblyError.trace with
    | error e =>
      rw [hmemory, htrace] at h
      cases h
    | ok trace =>
      rw [hmemory, htrace] at h
      exact ⟨memory, trace, (Except.ok.inj h).symm⟩

variable [Add τ] [Sub τ] [Zero τ] [LE τ] [LT τ] [DecidableLE τ] [DecidableLT τ]

/-- A machine that has been assembled is ready after every history. -/
theorem ready_history (h : assemble memorySize tickInterval timerInterval traceCapacity host = .ok m)
    (htick : ¬ tickInterval ≤ 0) (htimer : ¬ timerInterval ≤ 0) (env : Environment τ σ ε)
    (actions : List MachineAction) : (m.history (act env) actions).1.Ready := by
  obtain ⟨memory, trace, rfl⟩ := exists_of_assemble h
  exact history_keeps (fun m a hm => hm.act env a) ⟨rfl, htick, htimer⟩ actions

/-- **Interrupted runs leave their sources.**  A machine is assembled without events, with intervals
    that the clock accepts, and later, after some history, it has no events again.  It goes through
    more actions, of which `n` are runs that are interrupted.

    1. Then its clock is not running, and at every moment of a further run it has at most `n + 1`
       sources of each beat, at every moment of any other action at most `n`.  So as long as no run
       has been interrupted, no beat ever has two sources, and there are none between the runs.
    2. A run on a processor that has not halted has at most one source of each beat at every moment
       if it finds no events, and only then.
    3. If times are exact and time does not go back, such a run ticks the processor at most once for
       each tick interval that has passed since it began, and so does the timer for its interval. -/
theorem interrupted_runs_leave_sources
    (hnew : assemble memorySize tickInterval timerInterval traceCapacity host = .ok m)
    (htick : ¬ tickInterval ≤ 0) (htimer : ¬ timerInterval ≤ 0) (env : Environment τ σ ε)
    (earlier actions : List MachineAction) :
    let before := (m.history (act env) earlier).1
    let n := before.interruptedRuns env actions
    let after := (before.history (act env) actions).1
    m.clock.events = .empty ∧ after.clock.running = false ∧
    (before.clock.events = .empty →
      (∀ fuel c, Moment env after (.run fuel) c → ∀ b, c.scheduled b ≤ n + 1) ∧
      (∀ a, (∀ fuel, a ≠ .run fuel) → ∀ c, Moment env after a c → ∀ b, c.scheduled b ≤ n) ∧
      (n = 0 → after.clock.events = .empty)) ∧
    (after.rig.cpu.processor.halted = false → ∀ fuel,
      ((∀ c, Moment env after (.run fuel) c → ∀ b, c.scheduled b ≤ 1) ↔
        after.clock.events = .empty) ∧
      (ExactTimes τ → env.Forward → after.clock.events = .empty →
        KeepToRate (env.now after.rig.host) after.interval (times env (after.journal env fuel)))) := by
  intro before n after
  have hbefore : before.Ready := ready_history hnew htick htimer env earlier
  have hafter : after.Ready := by
    have hboth := ready_history hnew htick htimer env (earlier ++ actions)
    rwa [fst_history_append] at hboth
  obtain ⟨memory, trace, rfl⟩ := exists_of_assemble hnew
  refine ⟨rfl, hafter.idle, ?_, ?_⟩
  · intro hempty
    have hleft (b : Beat) : after.clock.scheduled b ≤ n := by
      have hhistory := scheduled_history hbefore env actions b
      rwa [Clock.scheduled_of_empty hempty, Nat.zero_add] at hhistory
    refine ⟨?_, ?_, ?_⟩
    · intro fuel c hc b
      exact (scheduled_moment_of_run hafter hc b).trans (Nat.add_le_add_right (hleft b) 1)
    · intro a ha c hc b
      exact (scheduled_moment a ha hafter hc b).trans (hleft b)
    · intro hn
      exact Clock.events_eq_empty_of_scheduled fun b => Nat.le_zero.mp (hn ▸ hleft b)
  · intro hrun fuel
    refine ⟨⟨?_, ?_⟩, fun laws henv hempty => keepToRate_run laws henv hafter hrun hempty fuel⟩
    · -- with the sources of the run there is one more of each beat than before
      intro hsingle
      refine Clock.events_eq_empty_of_scheduled fun b => ?_
      have hone := hsingle _ (moment_provided hafter hrun fuel) b
      rw [scheduled_provided] at hone
      exact Nat.le_zero.mp (Nat.le_of_succ_le_succ hone)
    · intro hempty c hc b
      have hone := scheduled_moment_of_run hafter hc b
      rwa [Clock.scheduled_of_empty hempty] at hone

end Assembly

/-- A host that fails when its time comes to three: the run has ticked twice by then, at its rate of one
    tick in each unit of time.  It leaves one source of each beat, and the next run adds another one. -/
theorem interrupted_runs_leave_sources_of_one_interruption :
    let env : Environment ℚ ℚ String :=
      ⟨.silent _ _, id, fun now d => (now + d, if now + d = 3 then [.raise 8] else [])⟩
    ∃ m, assemble 256 1 10 0 0 = .ok m ∧
      let after := (m.history (act env) [.run 20]).1
      (∀ c, Moment env after .tick c → ∀ b, c.scheduled b ≤ 1) ∧
      ¬ (∀ c, Moment env after (.run 20) c → ∀ b, c.scheduled b ≤ 1) ∧
      fired .tick (times env (m.journal env 20)) = 2 ∧
      ∀ before t after, times env (m.journal env 20) = before ++ (.tick, t) :: after →
        ((fired .tick before + 1 : Nat) : ℚ) ≤ t := by
  intro env
  let new : Machine ℚ ℚ := ofMemory .full 1 10 none 0
  have hnew : assemble 256 1 10 0 0 = .ok new := rfl
  have hforward : env.Forward := by
    refine ⟨fun _ => le_refl _, fun h h' => h.trans h', fun _ _ => le_refl _, ?_⟩
    intro s d hd
    exact le_add_of_nonneg_right hd.le
  refine ⟨new, hnew, ?_⟩
  intro after
  obtain ⟨hempty, _, hmoments, hsingle⟩ := interrupted_runs_leave_sources hnew (by norm_num)
    (by norm_num) env [] [.run 20]
  obtain ⟨_, _, _, hfirst⟩ := interrupted_runs_leave_sources hnew (by norm_num) (by norm_num) env [] []
  obtain ⟨_, hothers, _⟩ := hmoments hempty
  obtain ⟨_, hrate⟩ := hfirst rfl 20
  refine ⟨?_, ?_, by decide +kernel, ?_⟩
  · intro c hc b
    exact (hothers .tick (fun _ => MachineAction.noConfusion) c hc b).trans (by decide +kernel)
  · intro h
    have hnone : after.clock.events = .empty := (hsingle (by decide +kernel) 20).1.mp h
    have hsome : after.clock.events.isEmpty = false := by decide +kernel
    rw [hnone] at hsome
    cases hsome
  · intro before t rest heq
    have hlate := hrate exactTimes_rat hforward hempty before .tick t rest heq
    have hinterval : new.interval .tick = 1 := rfl
    have horigin : env.now new.rig.host = 0 := rfl
    rw [intervalsLater_rat] at hlate
    calc ((fired .tick before + 1 : Nat) : ℚ)
      _ = env.now new.rig.host + (fired .tick before + 1 : Nat) * new.interval .tick := by
        rw [hinterval, horigin, mul_one, zero_add]
      _ ≤ t := hlate

/-- **A run after an interrupted one** ticks the processor twice as often: in the course of one tick
    interval it does so three times. -/
theorem run_after_interruption_ticks_twice :
    let env : Environment Seconds (Seconds × Bool) String := ⟨.silent _ _, Prod.fst,
      fun s d => ((s.1 + d, false), if s.2 then [.raise 8] else [])⟩
    ∃ new, assemble 256 1.0 10.0 0 (0, true) = .ok new ∧
      let once := (new.history (act env) [.run 9]).1
      let twice := (new.history (act env) [.run 9, .run 4]).1
      once.clock.scheduled .tick = 1 ∧ once.clock.scheduled .timer = 1 ∧
      twice.clock.scheduled .tick = 2 ∧ twice.clock.scheduled .timer = 2 ∧
      fired .tick (times env (once.journal env 4)) = 3 ∧
      twice.rig.host.1 ≤ once.rig.host.1 + new.tickInterval := by
  intro env
  refine ⟨_, rfl, ?_⟩
  decide +kernel

end Machine

end Ls8
