import Ls8.Proofs.MachineSources
import Mathlib.Logic.Function.Iterate

/-
  A run that is refused.

  A run adds the source of the ticks and then that of the timer, and the clock accepts a source only if
  its interval is positive.  Nothing is taken back when the second source is refused, so a run is not
  all or nothing: a refused timer leaves the source of the ticks behind.

  1. **Refusals** (`run_of_tick_refused`, `run_of_timer_refused`) come from the two additions at the
     beginning of a run and from nowhere else, since a plain routine adds no source
     (`accepted_of_plain`); so a run whose intervals are positive is not refused, whatever happens in
     the course of it (`accepted_of_run`).

  2. **Again.**  The source that is left behind stays, so each further attempt leaves one more
     (`scheduled_attempts`), and a run that succeeds at last has them all beside its own.

  Main statement: `refused_runs_leave_ticks`.
-/

namespace Ls8

variable {τ σ ε : Type}

/-! ## Work that is accepted -/

/-- It is not for a source that work ended. -/
def Clock.Accepted {ε : Type} (i : Clock.Interruption ε) : Prop := ∀ e, i ≠ .refused e

/-- **A plain routine has no source refused,** since it adds none. -/
theorem Clock.accepted_of_plain {κ ω : Type} [Add τ] [Zero τ] [LE τ] [LT τ] [DecidableLE τ]
    [DecidableLT τ] {host : Clock.Host τ κ ω ε} {later : ω → ω → Prop}
    (pending : Clock.Work τ κ ω ε Nat) (started : Clock.Work τ κ ω ε Unit)
    {r : Clock.Routine τ κ ω ε} {c : Clock τ κ} {w : ω} (h : r.Plain host later w) :
    Clock.Leaves (· = (c, w)) (fun _ => True) (fun i _ => Clock.Accepted i)
      (r.run host pending started) := by
  rintro _ rfl
  induction r generalizing c w with
  | done => trivial
  | fail reason => exact fun _ => nofun
  | read next ih => exact ih w h
  | write v next ih => exact ih h.2
  | add | runPending | start | attempt => exact h.elim
  | stop next ih => exact ih (h c.dispatched)

namespace Machine

section Additions
variable [Add τ] [Sub τ] [Zero τ] [LE τ] [LT τ] [DecidableLE τ] [DecidableLT τ]
variable (env : Environment τ σ ε) (fuel : Nat) {m : Machine τ σ}

omit [Sub τ] in
/-- The clock of a machine has no source refused once it runs. -/
theorem upholds_accepted :
    (clockHost env).Upholds (fun _ => True) fun i _ => Clock.Accepted i where
  fire c rig e rest now pending started _ _ :=
    Clock.accepted_of_plain pending started ((plain_clockHost (proceeds_anyhow env)).fire _ rig)
  sleep d pending started := by
    rintro ⟨c, rig⟩ -
    have hplain : (sleep env d).Plain (clockHost env) (fun _ _ => True) rig :=
      ⟨trivial, plain_serve (proceeds_anyhow env) _⟩
    exact Clock.accepted_of_plain pending started hplain _ rfl
  exhausted _ _ _ := nofun

theorem accepted_of_start {s t : Clock τ Beat × Rig σ} {i : Interruption ε}
    (h : Clock.start (clockHost env) fuel s = .error i t) : Clock.Accepted i := by
  cases hidle : s.1.running with
  | true =>
    -- a clock that is running already is left alone
    rw [Clock.start, Clock.startWith, if_pos hidle] at h
    cases h
  | false =>
    obtain ⟨_, haccepted, _⟩ :=
      (Clock.leaves_start (upholds_accepted env) fuel).of_error ⟨hidle, trivial⟩ h
    exact haccepted

/-- **A run with positive intervals is not refused,** whatever the clock has. -/
theorem accepted_of_run (hrun : m.rig.cpu.processor.halted = false) (htick : ¬ m.tickInterval ≤ 0)
    (htimer : ¬ m.timerInterval ≤ 0) {i : Interruption ε} (h : (m.run env fuel).2 = some i) :
    Clock.Accepted i := by
  rw [run, perform, perform_runTask env fuel htick htimer hrun] at h
  cases hstarted : Clock.start (clockHost env) fuel (m.provided env, m.rig) with
  | ok u t =>
    rw [hstarted] at h
    cases h
  | error j t =>
    rw [hstarted] at h
    obtain rfl := Option.some.inj h
    exact accepted_of_start env fuel hstarted

/-- A machine whose processor has not halted adds its sources and starts. -/
theorem perform_runTask_eq (hrun : m.rig.cpu.processor.halted = false) :
    Clock.perform (clockHost env) fuel (runTask m.tickInterval m.timerInterval) (m.clock, m.rig) =
      Clock.perform (clockHost env) fuel (addSources m.tickInterval m.timerInterval (.start .done))
        (m.clock, m.rig) := by
  show Clock.Routine.run (clockHost env) _ _ (if m.rig.cpu.processor.halted then .done
    else addSources m.tickInterval m.timerInterval (.start .done)) (m.clock, m.rig) = _
  rw [hrun]
  rfl

/-- **If the ticks are refused,** the machine is as it was. -/
theorem run_of_tick_refused (hrun : m.rig.cpu.processor.halted = false) (htick : m.tickInterval ≤ 0) :
    m.run env fuel = (m, some (.refused ⟨"tick"⟩)) := by
  have hrefused : m.clock.add (env.now m.rig.host) (source .tick m.tickInterval) =
      .error ⟨"tick"⟩ := if_pos htick
  have hadded : Clock.perform (clockHost env) fuel
      (addSources m.tickInterval m.timerInterval (.start .done)) (m.clock, m.rig) =
        .error (.refused ⟨"tick"⟩) (m.clock, m.rig) :=
    Clock.run_add_of_error hrefused
  rw [run, perform, perform_runTask_eq env fuel hrun, hadded]

/-- **The clock of a machine with the source of the ticks** that a run adds first. -/
def ticking (m : Machine τ σ) : Clock τ Beat :=
  m.clock.schedule (source .tick m.tickInterval) (env.now m.rig.host + m.tickInterval)

/-- **If the timer is refused,** the source of the ticks stays behind, and all else is as it was. -/
theorem run_of_timer_refused (hrun : m.rig.cpu.processor.halted = false)
    (htick : ¬ m.tickInterval ≤ 0) (htimer : m.timerInterval ≤ 0) :
    m.run env fuel = ({ m with clock := m.ticking env }, some (.refused ⟨"timer"⟩)) := by
  have haccepted : m.clock.add (env.now m.rig.host) (source .tick m.tickInterval) =
      .ok (m.ticking env) := if_neg htick
  have hrefused : (m.ticking env).add (env.now m.rig.host) (source .timer m.timerInterval) =
      .error ⟨"timer"⟩ := if_pos htimer
  have hadded : Clock.perform (clockHost env) fuel
      (addSources m.tickInterval m.timerInterval (.start .done)) (m.clock, m.rig) =
        .error (.refused ⟨"timer"⟩) (m.ticking env, m.rig) := by
    rw [Clock.perform, addSources, Clock.run_add_of_ok haccepted]
    exact Clock.run_add_of_error hrefused
  rw [run, perform, perform_runTask_eq env fuel hrun, hadded]

/-- **A run is refused exactly for an interval that is not positive.** -/
theorem refused_iff (hrun : m.rig.cpu.processor.halted = false) :
    (∃ e, (m.run env fuel).2 = some (.refused e)) ↔ m.tickInterval ≤ 0 ∨ m.timerInterval ≤ 0 := by
  by_cases htick : m.tickInterval ≤ 0
  · rw [run_of_tick_refused env fuel hrun htick]
    exact iff_of_true ⟨_, rfl⟩ (.inl htick)
  · by_cases htimer : m.timerInterval ≤ 0
    · rw [run_of_timer_refused env fuel hrun htick htimer]
      exact iff_of_true ⟨_, rfl⟩ (.inr htimer)
    · refine iff_of_false ?_ (not_or.mpr ⟨htick, htimer⟩)
      rintro ⟨e, hrefused⟩
      exact accepted_of_run env fuel hrun htick htimer hrefused e rfl

/-! ## Attempts -/

/-- **A machine after so many attempts to run it.** -/
def attempts (n : Nat) (m : Machine τ σ) : Machine τ σ := (fun m => (m.run env fuel).1)^[n] m

/-- **Each attempt leaves one more source of the ticks,** and nothing else changes. -/
theorem scheduled_attempts (hrun : m.rig.cpu.processor.halted = false)
    (htick : ¬ m.tickInterval ≤ 0) (htimer : m.timerInterval ≤ 0) (n : Nat) (b : Beat) :
    (m.attempts env fuel n).clock.scheduled b =
      m.clock.scheduled b + if b = .tick then n else 0 := by
  induction n generalizing m with
  | zero =>
    rw [ite_self, Nat.add_zero]
    rfl
  | succ n ih =>
    let left : Machine τ σ := { m with clock := m.ticking env }
    have hfirst : m.attempts env fuel (n + 1) = left.attempts env fuel n := by
      rw [attempts, Function.iterate_succ_apply, run_of_timer_refused env fuel hrun htick htimer]
      rfl
    have hrest : (left.attempts env fuel n).clock.scheduled b =
        (m.ticking env).scheduled b + if b = .tick then n else 0 := ih hrun htick htimer
    rw [hfirst, hrest, ticking, Clock.scheduled_schedule]
    cases b with
    | tick =>
      simp only [source, if_true]
      omega
    | timer => simp [source]

/-! ## The main statement -/

/-- **Refused runs leave ticks.**  Take a machine whose processor has not halted, with anything in the
    schedule of its clock, whether this is running or not, and with any intervals.

    1. A run is refused exactly if an interval is not positive.  The clock is not marked otherwise than
       before, it has fired nothing, and processor and host are as they were.
    2. If the interval of the ticks is refused, the whole machine is as it was.
    3. If only that of the timer is, then the clock has exactly one event more, the first tick.  So the
       events are as they were exactly if the interval of the ticks was refused.
    4. After so many such attempts there are so many sources of the ticks more, and a run with another
       interval for the timer has them all beside its own. -/
theorem refused_runs_leave_ticks (env : Environment τ σ ε) (fuel : Nat) (m : Machine τ σ)
    (hrun : m.rig.cpu.processor.halted = false) :
    let after := (m.run env fuel).1
    ((∃ e, (m.run env fuel).2 = some (.refused e)) ↔ m.tickInterval ≤ 0 ∨ m.timerInterval ≤ 0) ∧
    ((∃ e, (m.run env fuel).2 = some (.refused e)) →
      after.clock.running = m.clock.running ∧ after.clock.dispatched = m.clock.dispatched ∧
      after.rig = m.rig ∧ (after.clock.events = m.clock.events ↔ m.tickInterval ≤ 0)) ∧
    (m.tickInterval ≤ 0 → m.run env fuel = (m, some (.refused ⟨"tick"⟩))) ∧
    (¬ m.tickInterval ≤ 0 → m.timerInterval ≤ 0 →
      (m.run env fuel).2 = some (.refused ⟨"timer"⟩) ∧
      after.clock.events.toList.Perm (⟨env.now m.rig.host + m.tickInterval, m.clock.sequence,
        source .tick m.tickInterval⟩ :: m.clock.events.toList) ∧
      ∀ n interval,
        (m.attempts env fuel n).clock.scheduled .tick = m.clock.scheduled .tick + n ∧
        (({ m.attempts env fuel n with timerInterval := interval } :
          Machine τ σ).provided env).scheduled .tick = m.clock.scheduled .tick + n + 1) := by
  intro after
  refine ⟨refused_iff env fuel hrun, ?_, run_of_tick_refused env fuel hrun, ?_⟩
  · intro hrefused
    by_cases htick : m.tickInterval ≤ 0
    · have hafter : after = m := congrArg Prod.fst (run_of_tick_refused env fuel hrun htick)
      rw [hafter]
      exact ⟨rfl, rfl, rfl, iff_of_true rfl htick⟩
    · have htimer := ((refused_iff env fuel hrun).mp hrefused).resolve_left htick
      have hafter : after = { m with clock := m.ticking env } :=
        congrArg Prod.fst (run_of_timer_refused env fuel hrun htick htimer)
      rw [hafter]
      refine ⟨rfl, rfl, rfl, iff_of_false ?_ htick⟩
      -- there is one event more, so the events are others
      intro hsame
      have hlength := (Clock.events_schedule m.clock (source .tick m.tickInterval)
        (env.now m.rig.host + m.tickInterval)).length_eq
      have hevents : (m.ticking env).events = m.clock.events := hsame
      rw [← ticking, hevents, List.length_cons] at hlength
      omega
  · intro htick htimer
    have hended := run_of_timer_refused env fuel hrun htick htimer
    have hafter : after = { m with clock := m.ticking env } := congrArg Prod.fst hended
    refine ⟨congrArg Prod.snd hended, ?_, fun n interval => ?_⟩
    · rw [hafter]
      exact Clock.events_schedule _ _ _
    · have hticks := scheduled_attempts env fuel hrun htick htimer n .tick
      rw [if_pos rfl] at hticks
      refine ⟨hticks, ?_⟩
      rw [scheduled_provided]
      exact congrArg (· + 1) hticks

end Additions

/-- A machine with a tick in each unit of time and no interval for the timer, on a clock that is running
    and has a source of its timer already: two attempts to run it. -/
theorem refused_runs_leave_ticks_of_zero_timer :
    let env : Environment Int Int String := ⟨.silent Int String, id, fun s d => (s + d, [])⟩
    let clock : Clock Int Beat := { ({} : Clock Int Beat).schedule (source .timer 5) 9 with running := true }
    let m : Machine Int Int := { ofMemory .full 1 0 none 3 with clock := clock }
    m.rig.cpu.processor.halted = false ∧
      (∃ e, (m.run env 7).2 = some (.refused e)) ∧ (m.run env 7).1.clock.running = true ∧
      (m.run env 7).1.clock.events ≠ m.clock.events ∧
      (m.run env 7).1.clock.events.toList.Perm [⟨4, 1, source .tick 1⟩, ⟨9, 0, source .timer 5⟩] ∧
      (m.attempts env 7 2).clock.scheduled .tick = 2 ∧
      (({ m.attempts env 7 2 with timerInterval := 5 } : Machine Int Int).provided env).scheduled
        .tick = 3 := by
  intro env clock m
  have hrun : m.rig.cpu.processor.halted = false := rfl
  have htick : ¬ m.tickInterval ≤ 0 := by decide
  have htimer : m.timerInterval ≤ 0 := by decide
  obtain ⟨hiff, hleft, _, htimed⟩ := refused_runs_leave_ticks env 7 m hrun
  have hrefused := hiff.mpr (.inr htimer)
  obtain ⟨hrunning, _, _, hevents⟩ := hleft hrefused
  obtain ⟨_, hmore, hattempts⟩ := htimed htick htimer
  obtain ⟨hticks, hprovided⟩ := hattempts 2 5
  exact ⟨hrun, hrefused, hrunning, fun hsame => htick (hevents.mp hsame), hmore, hticks, hprovided⟩

/-- **A refused run is not undone.**  A new machine whose timer has no interval is refused, and the
    source of its ticks stays.  Once the timer has an interval, the processor is ticked twice in each
    interval of the ticks. -/
theorem refused_run_is_not_undone :
    let env : Environment Seconds Seconds String := ⟨.silent _ _, id, fun s d => (s + d, [])⟩
    ∃ new, assemble 256 1.0 0 0 0 = .ok new ∧
      let after := (new.run env 5).1
      let mended := { after with timerInterval := (10.0 : Seconds) }
      new.rig.cpu.processor.halted = false ∧ (new.run env 5).2 = some (.refused ⟨"timer"⟩) ∧
      new.clock.events = .empty ∧ after.clock.events ≠ .empty ∧ after.clock.scheduled .tick = 1 ∧
      (mended.run env 5).1.rig.host ≤ 2.0 ∧ fired .tick (times env (mended.journal env 5)) = 4 := by
  intro env
  have hended := run_of_timer_refused env 5 (m := ofMemory .full 1.0 0 none 0) rfl
    (by decide +kernel) (by decide +kernel)
  refine ⟨_, rfl, rfl, congrArg Prod.snd hended, rfl, ?_, by decide +kernel⟩
  intro hempty
  have hticks := Clock.scheduled_of_empty hempty .tick
  revert hticks
  decide +kernel

end Machine

end Ls8
