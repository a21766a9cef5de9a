import Ls8.Machine
import Ls8.Proofs.Bounds
import Ls8.Proofs.Clock.FixedRate

/-
  The timetable of a machine.

  A machine is a clock with two sources, the ticks and the timer.  If the host lets time pass only
  in its sleeps and never fails while it takes a text (`Environment.Exact`), then neither a tick nor
  a firing of the timer takes time, adds a source or fails, whatever the program does
  (`steady_clockHost`).  A fault is no failure: the processor halts and stops the clock.

  Main statement: a clock that is started with any sources keeps their timetable, and so a machine
  keeps the timetable of its ticks and its timer (`timetable_kept`).
-/

namespace Ls8

variable {σ ε : Type}

/-! ## What a tick does to the host -/

namespace Cpu

/-- A tick leaves the host as it is, or hands one text to it. -/
theorem host_tick (outlet : Outlet σ ε) (c : Cpu) (host : σ) : (c.tick outlet host).host = host ∨
    ∃ text, (c.tick outlet host).host = (outlet.deliver host text).1 := by
  refine tick_cases ?_ ?_ ?_ ?_ ?_ ?_
  · exact fun _ => .inl rfl
  · exact fun _ _ _ _ _ => .inl rfl
  · exact fun _ _ _ _ _ _ => .inl rfl
  · exact fun _ _ _ => .inl rfl
  · exact fun _ _ _ _ _ => .inl rfl
  · intro opcode i _ _ _ _
    refine perform_cases ?_ ?_ ?_ ?_ ?_
    · exact fun _ _ _ => .inl rfl
    · exact fun _ _ => .inl (host_completed _)
    · exact fun text _ _ _ _ _ _ => .inr ⟨text, host_completed _⟩
    · exact fun text _ _ _ _ _ _ _ => .inr ⟨text, rfl⟩
    · exact fun text _ _ _ _ _ _ _ => .inr ⟨text, rfl⟩

end Cpu

/-! ## Hosts with exact sleeps -/

/-- **A host with exact sleeps:** time passes only while it sleeps, as long as it was asked to, and
    then it asks for nothing; it never fails while it takes a text. -/
structure Environment.Exact (env : Environment ℚ σ ε) : Prop where
  deliver : ∀ s text, env.now (env.output.deliver s text).1 = env.now s
  answers : ∀ s text reason, .fail reason ∉ (env.output.deliver s text).2
  sleep : ∀ s d, 0 < d → env.now (env.sleep s d).1 = env.now s + d
  quiet : ∀ s d, 0 < d → (env.sleep s d).2 = []

namespace Machine

variable {env : Environment ℚ σ ε}

/-- Carrying out effects takes no time. -/
theorem steady_carryOut (effects : List Effect) (rig : Rig σ) :
    (carryOut none effects : Task ℚ σ ε).Steady (clockHost env) (fun _ => True) rig := by
  induction effects generalizing rig with
  | nil => exact trivial
  | cons e rest ih =>
    cases e with
    | stopClock => exact fun n => ih _
    | output | report | diagnostic => exact ⟨rfl, ih _⟩

/-- A tick takes no time. -/
theorem steady_tick (h : env.Exact) (rig : Rig σ) :
    (tick env).Steady (clockHost env) (fun _ => True) rig := by
  have hnow : env.now (rig.cpu.tick env.output rig.host).host = env.now rig.host := by
    rcases Cpu.host_tick env.output rig.cpu rig.host with hsame | ⟨text, htext⟩
    · rw [hsame]
    · rw [htext, h.deliver]
  have hfailure : (rig.cpu.tick env.output rig.host).failure = none := by
    cases hf : (rig.cpu.tick env.output rig.host).failure with
    | none => rfl
    | some reason =>
      obtain ⟨text, before, after, _, hrequests, _⟩ := Cpu.failure_of_tick hf
      refine absurd ?_ (h.answers rig.host text reason)
      rw [hrequests]
      exact List.mem_append_right _ List.mem_cons_self
  refine ⟨hnow, ?_⟩
  rw [hfailure]
  exact steady_carryOut _ _

/-- **A machine in a host with exact sleeps** does all its work in no time. -/
theorem steady_clockHost (h : env.Exact) : (clockHost env).Steady fun _ => True where
  fire k rig _ := by
    cases k with
    | tick => exact steady_tick h rig
    | timer => exact ⟨rfl, trivial⟩
  sleep d rig hd _ := by
    show (serve (env.sleep rig.host d).2 : Task ℚ σ ε).Lasts (clockHost env) _ _
      { rig with host := (env.sleep rig.host d).1 }
    rw [h.quiet rig.host d hd]
    exact ⟨trivial, h.sleep rig.host d hd⟩
  told _ _ := rfl
  started _ _ _ := trivial

/-! ## The timetable -/

/-- **The timetable of a machine:** its ticks and its timer, the ticks listed first. -/
def timetable (origin : ℚ) {tickInterval timerInterval : ℚ} (htick : 0 < tickInterval)
    (htimer : 0 < timerInterval) : Clock.Timetable Beat where
  sources := [source .tick tickInterval, source .timer timerInterval]
  origin := origin
  positive := by
    intro s hs
    rcases List.mem_cons.mp hs with rfl | hs
    · exact htick
    · rw [List.mem_singleton.mp hs]
      exact htimer

/-- A machine whose processor has not halted adds its two sources and starts. -/
theorem outcome_runTask (host : Clock.Host ℚ Beat (Rig σ) (HostFailure ε)) (a b : ℚ)
    (c : Clock ℚ Beat) {rig : Rig σ} (hrun : rig.cpu.processor.halted = false) :
    Clock.outcome host (runTask a b) c rig =
      Clock.outcome host (.addAll [source .tick a, source .timer b] (.start .done)) c rig := by
  funext fuel
  show Clock.Routine.run host.journaled _ _
    (if rig.cpu.processor.halted then .done else addSources a b (.start .done) :
      Task ℚ σ ε).journaled _ = _
  rw [hrun]
  rfl

/-- **Fixed rates.**  If sources with positive intervals are added at one time to a clock that is not
    running and has no events, and it is started then, in a host in which only sleeps take time and
    with commands that add no sources and do not fail, then each source fires at the times that are
    a multiple of its interval after that time, none left out and none twice.  The firings are in the
    order of time; of those at the same time the one with the longer interval comes first, and with
    equal intervals the one that was added first.  They go on until a command stops the clock, and
    nothing is fired after that.  Every sleep is positive and lasts until the earliest firing that
    has not been made.

    A machine in a host with exact sleeps is such a clock, with its ticks and its timer. -/
theorem timetable_kept :
    (∀ (κ ω ε : Type) (host : Clock.Host ℚ κ ω ε) (I : ω → Prop) (T : Clock.Timetable κ)
      (c : Clock ℚ κ) (w : ω), host.Steady I → c.running = false → c.events = .empty → I w →
      host.now w = T.origin →
      Clock.KeepsTimetable T host (.addAll T.sources (.start .done)) c w) ∧
    (∀ (σ ε : Type) (env : Environment ℚ σ ε) (m : Machine ℚ σ) (htick : 0 < m.tickInterval)
      (htimer : 0 < m.timerInterval), env.Exact → m.rig.cpu.processor.halted = false →
      m.clock.running = false → m.clock.events = .empty →
      Clock.KeepsTimetable (timetable (env.now m.rig.host) htick htimer) (clockHost env)
        (runTask m.tickInterval m.timerInterval) m.clock m.rig) := by
  constructor
  · intro κ ω ε host I T c w hsteady hidle hempty hI hw
    exact Clock.keepsTimetable_addAll hsteady T hidle hempty hI hw
  · intro σ ε env m htick htimer hexact hrun hidle hempty
    refine Clock.KeepsTimetable.congr (outcome_runTask _ _ _ _ hrun) ?_
    exact Clock.keepsTimetable_addAll (steady_clockHost hexact)
      (timetable (env.now m.rig.host) htick htimer) hidle hempty trivial rfl

/-- Two sources, one of which runs what is pending and the other one stops the clock; and a machine
    that executes no program, whose timer fires at every second tick. -/
theorem timetable_kept_of_two_rates :
    let host : Clock.Host ℚ Bool ℚ String := {
      now := id
      fire := fun last => if last then .stop .done else .runPending fun _ => .done
      sleep := fun d => .read fun now => .write (now + d) .done
      told := fun _ now => now }
    let T : Clock.Timetable Bool := ⟨[⟨"short", 1, false⟩, ⟨"long", 3, true⟩], 5, by decide +kernel⟩
    let env : Environment ℚ ℚ String := ⟨.silent ℚ String, id, fun now d => (now + d, [])⟩
    let m : Machine ℚ ℚ := ofMemory (.holding []) 1 2 none 0
    Clock.KeepsTimetable T host (.addAll T.sources (.start .done)) {} 5 ∧
      Clock.KeepsTimetable (timetable 0 zero_lt_one zero_lt_two) (clockHost env) (runTask 1 2)
        m.clock m.rig := by
  intro host T env m
  obtain ⟨hclock, hmachine⟩ := timetable_kept
  have hsteady : host.Steady fun _ => True := by
    refine ⟨?_, ?_, fun _ _ => rfl, fun _ _ _ => trivial⟩
    · rintro (_ | _) w _
      · exact ⟨trivial, fun _ _ _ _ => trivial⟩
      · exact fun _ => trivial
    · exact fun d w _ _ => ⟨trivial, rfl⟩
  have hexact : env.Exact := ⟨fun _ _ => rfl, fun _ _ _ => List.not_mem_nil, fun _ _ _ => rfl,
    fun _ _ _ => rfl⟩
  exact ⟨hclock Bool ℚ String host _ T {} 5 hsteady rfl rfl trivial rfl,
    hmachine ℚ String env m zero_lt_one zero_lt_two hexact rfl rfl rfl⟩

end Machine

end Ls8
