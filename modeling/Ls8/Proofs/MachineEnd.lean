import Ls8.Machine
import Ls8.Seconds
import Ls8.Proofs.Clock.Endings
import Ls8.Proofs.Clock.Journal
import Ls8.Proofs.Stopping

/-
  How the run of a machine ends.

  1. **Hooks.**  A machine calls its host in two places, while a tick puts out a text and while the
     clock sleeps.  What the host asks for there (`hooks`) can stop the clock or fail, but it cannot
     add a source or start the clock again.  So what a tick or a sleep does to the clock is to stop
     it or to leave it (`StopsIf`).

  2. **The invariant** between two firings (`Underway`).  Either both sources are scheduled and the
     processor runs (`Live`), or the clock has been stopped and is empty (`Over`), because the last
     firing halted the processor or because a hook asked for it.

  3. **The crux** is the firing.  The next firing of a source is scheduled before its command is run,
     so both sources are there while a hook may fail; and a tick that halts stops the clock itself, so
     nothing is left that could be fired after it.

  Main statement: `run_ends`.
-/

namespace Ls8

variable {τ σ ε : Type}

/-! ## Reading the journal of a machine -/

namespace Clock

/-- **The clock has been stopped** at some time. -/
def Journal.stopped {κ ω : Type} (journal : Journal τ κ ω) : Bool := journal.any Happening.isStop

variable {κ ω : Type} {journal notices : Journal τ κ ω}

theorem Journal.stopped_append (journal notices : Journal τ κ ω) :
    (journal ++ notices).stopped = (journal.stopped || notices.stopped) :=
  List.any_append

/-- Stops are no firings. -/
theorem Journal.firings_of_stops (now : ω → τ) (h : ∀ x ∈ notices, x.isStop = true) :
    notices.filterMap (firing? now) = [] := by
  rw [List.filterMap_eq_nil_iff]
  intro x hx
  have hstop := h x hx
  cases x with
  | told => rfl
  | added | fired | slept => cases hstop

end Clock

namespace Machine

/-- **The hooks that are called** in the course of a happening, each with its requests: a tick calls
    one for every text that it puts out, and a sleep calls one. -/
def hooks (env : Environment τ σ ε) : Clock.Happening τ Beat (Rig σ) → List (List (Request ε))
  | .fired .tick rig =>
    ((rig.cpu.tick env.output rig.host).effects.filterMap Effect.output?).map fun s =>
      (env.output.deliver rig.host s).2
  | .slept d rig => [(env.sleep rig.host d).2]
  | .added .. | .fired .timer _ | .told .. => []

/-- In the course of a happening a hook comes to make a request. -/
def Asks (env : Environment τ σ ε) (h : Clock.Happening τ Beat (Rig σ)) (r : Request ε) : Prop :=
  ∃ requests ∈ hooks env h, r.Reached requests

/-- **The last firing halted the processor:** it is a tick that found it running, and there is no
    firing and no sleep after it. -/
def HaltedLast (env : Environment τ σ ε) (journal : Clock.Journal τ Beat (Rig σ)) : Prop :=
  ∃ before rig after, journal = before ++ .fired .tick rig :: after ∧
    rig.cpu.processor.halted = false ∧
    (rig.cpu.tick env.output rig.host).cpu.processor.halted = true ∧
    ∀ h ∈ after, h.isActive = false

/-- A clock of a machine, with a journal. -/
abbrev State (τ σ : Type) := Clock τ Beat × Clock.Journaled τ Beat (Rig σ)

variable {env : Environment τ σ ε} {a b : τ} {s t : State τ σ} {stops : Bool}

/-- What happened is noted; among the stops that followed it no hook was called. -/
theorem Asks.mem {journal notices : Clock.Journal τ Beat (Rig σ)}
    {h x : Clock.Happening τ Beat (Rig σ)} {r : Request ε} (hasks : Asks env h r)
    (hnotices : ∀ y ∈ notices, y.isStop = true) (hmem : h ∈ journal ++ [x] ++ notices) :
    h ∈ journal ∨ h = x := by
  rw [List.mem_append, List.mem_append, List.mem_singleton] at hmem
  rcases hmem with hmem | hmem
  · exact hmem
  · obtain ⟨_, hook, _⟩ := hasks
    have hstop := hnotices h hmem
    cases h with
    | told => exact absurd hook List.not_mem_nil
    | added | fired | slept => cases hstop

/-! ## What a routine does to the clock -/

/-- **From one state to the other the clock was stopped,** or it was left as it was; the processor
    has not halted meanwhile. -/
structure StopsIf (stops : Bool) (s t : State τ σ) : Prop where
  clock : t.1 = if stops then s.1.stop else s.1
  journal : ∃ notices, t.2.1 = s.2.1 ++ notices ∧ (∀ h ∈ notices, h.isStop = true) ∧
    Clock.Journal.stopped notices = stops
  halted : t.2.2.cpu.processor.halted = s.2.2.cpu.processor.halted

theorem StopsIf.refl (s : State τ σ) : StopsIf false s s where
  clock := rfl
  journal := ⟨[], (List.append_nil _).symm, fun _ h => absurd h List.not_mem_nil, rfl⟩
  halted := rfl

/-- What changes neither the clock nor whether the processor has halted does not matter. -/
theorem StopsIf.of_rig {c : Clock τ Beat} {journal : Clock.Journal τ Beat (Rig σ)}
    {rig rig' : Rig σ} (h : StopsIf stops (c, (journal, rig')) t)
    (hhalted : rig'.cpu.processor.halted = rig.cpu.processor.halted) :
    StopsIf stops (c, (journal, rig)) t where
  clock := h.clock
  journal := h.journal
  halted := h.halted.trans hhalted

/-- A stop before anything else. -/
theorem StopsIf.stop {c : Clock τ Beat} {journal : Clock.Journal τ Beat (Rig σ)} {rig rig' : Rig σ}
    {n : Nat} (h : StopsIf stops (c.stop, (journal ++ [.told (.stopped n) rig'], rig)) t) :
    StopsIf true (c, (journal, rig)) t where
  clock := by
    rw [h.clock]
    cases stops <;> rfl
  journal := by
    obtain ⟨notices, hjournal, hall, _⟩ := h.journal
    refine ⟨.told (.stopped n) rig' :: notices, ?_, ?_, rfl⟩
    · rw [hjournal, List.append_assoc]
      rfl
    · intro x hx
      rcases List.mem_cons.mp hx with rfl | hx
      · rfl
      · exact hall x hx
  halted := h.halted

section Routines
variable [Add τ] [Zero τ] [LE τ] [LT τ] [DecidableLE τ] [DecidableLT τ]
variable (pending : Clock.Work τ Beat (Clock.Journaled τ Beat (Rig σ)) (HostFailure ε) Nat)
variable (started : Clock.Work τ Beat (Clock.Journaled τ Beat (Rig σ)) (HostFailure ε) Unit)

/-- **Carrying out effects** stops the clock if that is one of them. -/
theorem exists_carriedOut (env : Environment τ σ ε) (failure : Option ε) (effects : List Effect)
    (c : Clock τ Beat) (journal : Clock.Journal τ Beat (Rig σ)) (rig : Rig σ) :
    ∃ t, (carryOut failure effects : Task τ σ ε).journaled.run (clockHost env).journaled pending
        started (c, (journal, rig)) = Clock.concluded (failure.map .host) t ∧
      StopsIf (decide (.stopClock ∈ effects)) (c, (journal, rig)) t := by
  induction effects generalizing c journal rig with
  | nil =>
    refine ⟨(c, (journal, rig)), ?_, .refl _⟩
    cases failure <;> rfl
  | cons e rest ih =>
    cases e with
    | stopClock =>
      obtain ⟨t, hrun, hstops⟩ := ih c.stop (journal ++ [.told (.stopped c.dispatched) rig])
        ((clockHost env).told (.stopped c.dispatched) rig)
      have hstops' : StopsIf _ (c.stop, (_, rig)) t := hstops.of_rig rfl
      refine ⟨t, hrun, ?_⟩
      rw [decide_eq_true List.mem_cons_self]
      exact hstops'.stop
    | output | report | diagnostic =>
      obtain ⟨t, hrun, hstops⟩ := ih c journal (rig.did _)
      refine ⟨t, hrun, ?_⟩
      simp only [List.mem_cons, reduceCtorEq, false_or]
      exact hstops.of_rig rfl

/-- **Serving requests** stops the clock if a hook comes to ask for it, and fails if it comes to a
    failure. -/
theorem exists_served (env : Environment τ σ ε) (requests : List (Request ε))
    (c : Clock τ Beat) (journal : Clock.Journal τ Beat (Rig σ)) (rig : Rig σ) :
    ∃ t failure stops, (serve requests : Task τ σ ε).journaled.run (clockHost env).journaled pending
        started (c, (journal, rig)) = Clock.concluded failure t ∧
      StopsIf stops (c, (journal, rig)) t ∧
      (stops = true → Request.Reached .stopClock requests) ∧
      ∀ reason, Request.Reached (.fail reason) requests → failure = some (.host reason) := by
  have hnever {P : Prop} (h : false = true) : P := absurd h Bool.false_ne_true
  induction requests generalizing c journal rig with
  | nil =>
    refine ⟨(c, (journal, rig)), none, false, rfl, .refl _, hnever, fun _ h => ?_⟩
    cases h
  | cons r rest ih =>
    cases r with
    | stopClock =>
      obtain ⟨t, failure, stops, hrun, hstops, _, hfail⟩ :=
        ih c.stop (journal ++ [.told (.stopped c.dispatched) rig])
          ((clockHost env).told (.stopped c.dispatched) rig)
      have hstops' : StopsIf _ (c.stop, (_, rig)) t := hstops.of_rig rfl
      refine ⟨t, failure, true, hrun, hstops'.stop, fun _ => .first rest, ?_⟩
      rintro reason (_ | ⟨_, h⟩)
      exact hfail reason h
    | raise line =>
      simp only [serve, Clock.Routine.journaled, Clock.Routine.run, Cpu.raise, Processor.raise]
      cases hline : register? line with
      | none =>
        refine ⟨(c, (journal, rig)), some (.fault (.operand (.interruptLine line))), false, rfl,
          .refl _, hnever, ?_⟩
        rintro reason (_ | ⟨hq, _⟩)
        obtain ⟨s, hs⟩ := exists_register?_iff.mpr hq
        rw [hline] at hs
        cases hs
      | some r =>
        obtain ⟨t, failure, stops, hrun, hstops, hasked, hfail⟩ := ih c journal
          { rig with cpu := rig.cpu.withProcessor (rig.cpu.processor.withPending r) }
        refine ⟨t, failure, stops, hrun, hstops.of_rig rfl, fun hs => ?_, ?_⟩
        · exact .later (exists_register?_iff.mp ⟨r, hline⟩) (hasked hs)
        · rintro reason (_ | ⟨_, h⟩)
          exact hfail reason h
    | fault f =>
      refine ⟨(c, (journal, rig)), some (.fault f), false, rfl, .refl _, hnever, ?_⟩
      rintro reason (_ | ⟨hq, _⟩)
      exact hq.elim
    | fail reason =>
      refine ⟨(c, (journal, rig)), some (.host reason), false, rfl, .refl _, hnever, ?_⟩
      rintro reason' (_ | ⟨hq, _⟩)
      · rfl
      · exact hq.elim

end Routines

/-! ## The invariant -/

/-- **The sources of a machine:** both are scheduled, or the clock has been stopped and is empty. -/
def Scheduled (a b : τ) (s : State τ σ) : Prop :=
  (Clock.Journal.stopped s.2.1 = false ∧
    (s.1.events.toList.map (·.source)).Perm [source .tick a, source .timer b]) ∨
  (Clock.Journal.stopped s.2.1 = true ∧ s.1.events = .empty)

/-- Both sources are scheduled, the clock has not been stopped, and the processor runs. -/
structure Live (a b : τ) (s : State τ σ) : Prop where
  running : s.1.running = true
  unstopped : Clock.Journal.stopped s.2.1 = false
  sources : (s.1.events.toList.map (·.source)).Perm [source .tick a, source .timer b]
  alive : s.2.2.cpu.processor.halted = false

/-- The clock has been stopped, by a firing that halted the processor or at the request of a hook. -/
structure Over (env : Environment τ σ ε) (s : State τ σ) : Prop where
  running : s.1.running = false
  stopped : Clock.Journal.stopped s.2.1 = true
  events : s.1.events = .empty
  halted : s.2.2.cpu.processor.halted = true → HaltedLast env s.2.1
  asked : s.2.2.cpu.processor.halted = false → ∃ h ∈ s.2.1, Asks env h .stopClock

/-- **Where a machine is between two firings:** all firings have been counted, no hook has failed,
    and the machine is live or it is over. -/
structure Underway (env : Environment τ σ ε) (a b : τ) (dispatched : Nat) (s : State τ σ) :
    Prop where
  counted : s.1.dispatched = dispatched +
    (Clock.Journal.firings (fun rig => env.now rig.host) s.2.1).length
  unfailed : ∀ h ∈ s.2.1, ∀ reason, ¬ Asks env h (.fail reason)
  phase : Live a b s ∨ Over env s

/-- **Where a machine is when its run has failed:** its sources are there unless the clock has been
    stopped, and if a hook has failed, that is the reason. -/
structure Aborted (env : Environment τ σ ε) (a b : τ) (i : Interruption ε) (s : State τ σ) :
    Prop where
  scheduled : Scheduled a b s
  cause : ∀ h ∈ s.2.1, ∀ reason, Asks env h (.fail reason) → i = .failed (.host reason)

theorem Live.scheduled (h : Live a b s) : Scheduled a b s := .inl ⟨h.unstopped, h.sources⟩

theorem Over.scheduled (h : Over env s) : Scheduled a b s := .inr ⟨h.stopped, h.events⟩

/-- A run may be out of fuel at any time. -/
theorem Underway.exhausted {n : Nat} (h : Underway env a b n s) : Aborted env a b .exhausted s where
  scheduled := h.phase.elim (·.scheduled) (·.scheduled)
  cause := fun x hx reason hasks => absurd hasks (h.unfailed x hx reason)

/-- A machine that is underway does not finish while it is live. -/
theorem Underway.over {n : Nat} (h : Underway env a b n s) (hfinished : Clock.Finished s) :
    Over env s := by
  rcases h.phase with hlive | hover
  · exfalso
    rcases hfinished with hidle | hempty
    · exact nomatch hidle.symm.trans hlive.running
    · have hsources := hlive.sources
      rw [hempty] at hsources
      exact nomatch hsources.length_eq
  · exact hover

/-! ## A firing and a sleep -/

/-- **What a happening leaves** in which a hook may be called: the journal has grown by it, and the
    clock has been stopped meanwhile or not. -/
structure Passed (env : Environment τ σ ε) (x : Clock.Happening τ Beat (Rig σ)) (stops : Bool)
    (s t : State τ σ) : Prop where
  clock : t.1 = if stops then s.1.stop else s.1
  journal : ∃ notices, t.2.1 = s.2.1 ++ [x] ++ notices ∧ (∀ h ∈ notices, h.isStop = true) ∧
    Clock.Journal.stopped notices = stops

section Passed
variable {x : Clock.Happening τ Beat (Rig σ)} {stops : Bool}

/-- Whether the clock has been stopped after it. -/
theorem Passed.stopped (h : Passed env x stops s t) (hx : x.isStop = false) (hlive : Live a b s) :
    Clock.Journal.stopped t.2.1 = stops := by
  obtain ⟨notices, hjournal, _, hnotices⟩ := h.journal
  rw [hjournal, Clock.Journal.stopped_append, Clock.Journal.stopped_append, hlive.unstopped,
    hnotices]
  show (false || (x.isStop || false) || stops) = stops
  rw [hx]
  rfl

/-- The sources after it. -/
theorem Passed.scheduled (h : Passed env x stops s t) (hx : x.isStop = false) (hlive : Live a b s) :
    Scheduled a b t := by
  have hstopped := h.stopped hx hlive
  have hclock := h.clock
  cases stops with
  | false =>
    refine .inl ⟨hstopped, ?_⟩
    rw [hclock]
    exact hlive.sources
  | true =>
    refine .inr ⟨hstopped, ?_⟩
    rw [hclock]
    rfl

/-- If it has failed, so has its hook. -/
theorem Passed.aborted {n : Nat} {f : HostFailure ε} (h : Passed env x stops s t)
    (hx : x.isStop = false) (hlive : Live a b s) (hunder : Underway env a b n s)
    (hfail : ∀ reason, Asks env x (.fail reason) → f = .host reason) :
    Aborted env a b (.failed f) t where
  scheduled := h.scheduled hx hlive
  cause := by
    obtain ⟨notices, hjournal, hall, _⟩ := h.journal
    rw [hjournal]
    intro y hy reason hasks
    rcases hasks.mem hall hy with hbefore | rfl
    · exact absurd hasks (hunder.unfailed y hbefore reason)
    · rw [hfail reason hasks]

/-- **If it has not failed,** the machine is live or over, given that whatever halted the processor
    has stopped the clock, and that otherwise it was a hook that did. -/
theorem Passed.underway {n k : Nat} (h : Passed env x stops s t) (hx : x.isStop = false)
    (hlive : Live a b s) (hunder : Underway env a b n s)
    (hcounted : k = n + (Clock.Journal.firings (fun rig => env.now rig.host) t.2.1).length)
    (hunfailed : ∀ reason, ¬ Asks env x (.fail reason))
    (hhalted : t.2.2.cpu.processor.halted = true → stops = true ∧
      ∃ rig, x = .fired .tick rig ∧ rig.cpu.processor.halted = false ∧
        (rig.cpu.tick env.output rig.host).cpu.processor.halted = true)
    (hasked : t.2.2.cpu.processor.halted = false → stops = true → Asks env x .stopClock) :
    Underway env a b n ({ t.1 with dispatched := k }, t.2) := by
  have hstopped := h.stopped hx hlive
  have hclock := h.clock
  obtain ⟨notices, hjournal, hall, _⟩ := h.journal
  refine ⟨hcounted, ?_, ?_⟩
  · show ∀ y ∈ t.2.1, _
    rw [hjournal]
    intro y hy reason hasks
    rcases hasks.mem hall hy with hbefore | rfl
    · exact hunder.unfailed y hbefore reason hasks
    · exact hunfailed reason hasks
  · cases stops with
    | false =>
      refine .inl ⟨?_, hstopped, ?_, ?_⟩
      · show t.1.running = true
        rw [hclock]
        exact hlive.running
      · show (t.1.events.toList.map _).Perm _
        rw [hclock]
        exact hlive.sources
      · exact Bool.eq_false_iff.mpr fun hstop => nomatch (hhalted hstop).1
    | true =>
      refine .inr ⟨?_, hstopped, ?_, fun hstop => ?_, fun halive => ?_⟩
      · show t.1.running = false
        rw [hclock]
        rfl
      · show t.1.events = .empty
        rw [hclock]
        rfl
      · -- the happening was the tick that halted; after it there are stops only
        obtain ⟨_, rig, rfl, hbefore, hafter⟩ := hhalted hstop
        refine ⟨s.2.1, rig, notices, ?_, hbefore, hafter, fun y hy => ?_⟩
        · show t.2.1 = _
          rw [hjournal, List.append_assoc]
          rfl
        · have hstop := hall y hy
          cases y with
          | told => rfl
          | added | fired | slept => cases hstop
      · refine ⟨x, ?_, hasked halive rfl⟩
        show x ∈ t.2.1
        rw [hjournal]
        simp

/-- The firings after it. -/
theorem Passed.firings (h : Passed env x stops s t) (now : Rig σ → τ) :
    Clock.Journal.firings now t.2.1 =
      Clock.Journal.firings now s.2.1 ++ (Clock.Journal.firing? now x).toList := by
  obtain ⟨notices, hjournal, hall, _⟩ := h.journal
  rw [hjournal, Clock.Journal.firings, List.filterMap_append,
    Clock.Journal.firings_of_stops now hall, List.append_nil]
  exact Clock.Journal.firings_snoc now s.2.1 x

/-- Stopping a clock does not change what it has counted. -/
theorem Passed.dispatched (h : Passed env x stops s t) : t.1.dispatched = s.1.dispatched := by
  rw [h.clock]
  cases stops <;> rfl

end Passed

/-- A routine that stops the clock or not, once the happening is noted. -/
theorem StopsIf.passed {c : Clock τ Beat} {journal : Clock.Journal τ Beat (Rig σ)}
    {x : Clock.Happening τ Beat (Rig σ)} {rig rig' : Rig σ}
    (h : StopsIf stops (c, (journal ++ [x], rig')) t) : Passed env x stops (c, (journal, rig)) t :=
  ⟨h.clock, h.journal⟩

/-- A timer calls no hook. -/
theorem not_asks_timer {rig : Rig σ} {r : Request ε} : ¬ Asks env (.fired .timer rig) r := by
  rintro ⟨_, hook, _⟩
  exact absurd hook List.not_mem_nil

theorem asks_sleep_iff {d : τ} {rig : Rig σ} {r : Request ε} :
    Asks env (.slept d rig) r ↔ r.Reached (env.sleep rig.host d).2 := by
  constructor
  · rintro ⟨_, hook, hreached⟩
    rwa [List.mem_singleton.mp hook] at hreached
  · exact fun h => ⟨_, List.mem_singleton.mpr rfl, h⟩

theorem asks_tick_iff {rig : Rig σ} {r : Request ε} :
    Asks env (.fired .tick rig) r ↔ ∃ s, .output s ∈ (rig.cpu.tick env.output rig.host).effects ∧
      r.Reached (env.output.deliver rig.host s).2 := by
  constructor
  · rintro ⟨_, hook, hreached⟩
    obtain ⟨s, hs, rfl⟩ := List.mem_map.mp hook
    obtain ⟨e, he, htext⟩ := List.mem_filterMap.mp hs
    cases e with
    | output =>
      obtain rfl := Option.some.inj htext
      exact ⟨_, he, hreached⟩
    | stopClock | report | diagnostic => cases htext
  · rintro ⟨s, hs, h⟩
    exact ⟨_, List.mem_map.mpr ⟨s, List.mem_filterMap.mpr ⟨_, hs, rfl⟩, rfl⟩, h⟩

section Upholds
variable [Add τ] [Zero τ] [LE τ] [LT τ] [DecidableLE τ] [DecidableLT τ]
variable (pending : Clock.Work τ Beat (Clock.Journaled τ Beat (Rig σ)) (HostFailure ε) Nat)
variable (started : Clock.Work τ Beat (Clock.Journaled τ Beat (Rig σ)) (HostFailure ε) Unit)

/-- **A tick** leads to where a machine may be, or fails with its hook. -/
theorem leaves_tick {n : Nat} {c : Clock τ Beat} {journal : Clock.Journal τ Beat (Rig σ)}
    {rig : Rig σ} (hlive : Live a b (c, (journal, rig)))
    (hunder : Underway env a b n (c, (journal, rig))) :
    Clock.Leaves (· = (c, (journal, rig))) (fun s => Underway env a b n (s.1.countFiring, s.2))
      (Aborted env a b) (((clockHost env).journaled.fire .tick).run (clockHost env).journaled pending
        started) := by
  rintro _ rfl
  let turn := rig.cpu.tick env.output rig.host
  obtain ⟨t, hrun, hstops⟩ := exists_carriedOut pending started env turn.failure turn.effects c
    (journal ++ [.fired .tick rig]) { rig with cpu := turn.cpu, host := turn.host }
  have hhalted := hstops.halted
  have hpassed : Passed env (.fired .tick rig) _ (c, (journal, rig)) t := hstops.passed
  have hfired : ((clockHost env).journaled.fire .tick).run (clockHost env).journaled pending started
      (c, (journal, rig)) = Clock.concluded (turn.failure.map .host) t := hrun
  rw [hfired]
  have hcause {reason : ε} (hasks : Asks env (.fired .tick rig) (.fail reason)) :
      turn.failure = some reason := by
    obtain ⟨s, hs, hreached⟩ := asks_tick_iff.mp hasks
    exact Cpu.failure_of_reached hs hreached
  cases hfailure : turn.failure with
  | some reason =>
    refine hpassed.aborted rfl hlive hunder fun reason' hasks => ?_
    rw [Option.some.inj (hfailure.symm.trans (hcause hasks))]
  | none =>
    refine hpassed.underway rfl hlive hunder ?_ ?_ ?_ ?_
    · rw [hpassed.firings, hpassed.dispatched, hunder.counted, List.length_append]
      rfl
    · intro reason hasks
      exact nomatch hfailure.symm.trans (hcause hasks)
    · intro hstop
      rw [hhalted] at hstop
      exact ⟨decide_eq_true (Cpu.stop_of_halted hlive.alive hstop).2, rig, rfl, hlive.alive, hstop⟩
    · intro halive hstop
      rw [hhalted] at halive
      rcases Cpu.reached_of_stop (of_decide_eq_true hstop) with hstopped | hreached
      · exact nomatch halive.symm.trans hstopped
      · exact asks_tick_iff.mpr hreached

/-- **A firing of the timer** leaves a machine live. -/
theorem leaves_timer {n : Nat} {c : Clock τ Beat} {journal : Clock.Journal τ Beat (Rig σ)}
    {rig : Rig σ} (hlive : Live a b (c, (journal, rig)))
    (hunder : Underway env a b n (c, (journal, rig))) :
    Clock.Leaves (· = (c, (journal, rig))) (fun s => Underway env a b n (s.1.countFiring, s.2))
      (Aborted env a b) (((clockHost env).journaled.fire .timer).run (clockHost env).journaled pending
        started) := by
  rintro _ rfl
  let rig' : Rig σ := { rig with cpu := rig.cpu.timer }
  have hpassed : Passed env (.fired .timer rig) false (c, (journal, rig))
      (c, (journal ++ [.fired .timer rig], rig')) := (StopsIf.refl _).passed
  have hstill : rig.cpu.timer.processor.halted = false := hlive.alive
  refine hpassed.underway rfl hlive hunder ?_ (fun _ => not_asks_timer) ?_ (fun _ => nofun)
  · rw [hpassed.firings, hpassed.dispatched, hunder.counted, List.length_append]
    rfl
  · intro hstop
    exact nomatch hstill.symm.trans hstop

/-- **A sleep** leads to where a machine may be, or fails with its hook. -/
theorem leaves_sleep {n : Nat} (d : τ) {c : Clock τ Beat} {journal : Clock.Journal τ Beat (Rig σ)}
    {rig : Rig σ} (hlive : Live a b (c, (journal, rig)))
    (hunder : Underway env a b n (c, (journal, rig))) :
    Clock.Leaves (· = (c, (journal, rig))) (Underway env a b n)
      (Aborted env a b) (((clockHost env).journaled.sleep d).run (clockHost env).journaled pending
        started) := by
  rintro _ rfl
  obtain ⟨t, failure, stops, hrun, hstops, hasked, hfail⟩ := exists_served pending started env
    (env.sleep rig.host d).2 c (journal ++ [.slept d rig])
    { rig with host := (env.sleep rig.host d).1 }
  have hhalted := hstops.halted
  have hpassed : Passed env (.slept d rig) _ (c, (journal, rig)) t := hstops.passed
  have hslept : ((clockHost env).journaled.sleep d).run (clockHost env).journaled pending started
      (c, (journal, rig)) = Clock.concluded failure t := hrun
  rw [hslept]
  cases failure with
  | some f =>
    refine hpassed.aborted rfl hlive hunder fun reason hasks => ?_
    exact Option.some.inj (hfail reason (asks_sleep_iff.mp hasks))
  | none =>
    refine hpassed.underway (k := t.1.dispatched) rfl hlive hunder ?_ ?_ ?_ ?_
    · rw [hpassed.firings, hpassed.dispatched, hunder.counted, List.length_append]
      rfl
    · exact fun reason hasks => nomatch hfail reason (asks_sleep_iff.mp hasks)
    · intro hstop
      exact nomatch (hhalted.trans hlive.alive).symm.trans hstop
    · exact fun _ hstop => asks_sleep_iff.mpr (hasked hstop)

/-- **The host of a machine's clock upholds the invariant.** -/
theorem upholds_underway (env : Environment τ σ ε) (a b : τ) (n : Nat) :
    (clockHost env).journaled.Upholds (Underway env a b n) (Aborted env a b) where
  fire := by
    rintro c ⟨journal, rig⟩ e rest now pending started hunder hpop
    rcases hunder.phase with hlive | hover
    · have hpopped := Clock.Heap.toList_of_pop? hpop
      have hsource : e.source ∈ [source .tick a, source .timer b] := by
        refine hlive.sources.mem_iff.mp (List.mem_map_of_mem ?_)
        exact hpopped.mem_iff.mp List.mem_cons_self
      -- the source is scheduled again before its command is run
      have hagain : Live a b (c.reschedule e rest now, (journal, rig)) := by
        refine ⟨hlive.running, hlive.unstopped, ?_, hlive.alive⟩
        have hevents := Clock.events_schedule { c with events := rest } e.source
          (Clock.nextDue e now)
        refine List.Perm.trans (hevents.map fun e => e.source) ?_
        exact (hpopped.map fun e => e.source).trans hlive.sources
      have hunder' : Underway env a b n (c.reschedule e rest now, (journal, rig)) :=
        ⟨hunder.counted, hunder.unfailed, .inl hagain⟩
      rcases List.mem_cons.mp hsource with htick | htimer
      · rw [htick]
        exact leaves_tick pending started hagain hunder'
      · rw [List.mem_singleton.mp htimer]
        exact leaves_timer pending started hagain hunder'
    · rw [Clock.Heap.pop?_eq_none_iff.mpr hover.events] at hpop
      cases hpop
  sleep := by
    rintro d pending started ⟨c, journal, rig⟩ ⟨hunder, hrunning⟩
    rcases hunder.phase with hlive | hover
    · exact leaves_sleep pending started d hlive hunder _ rfl
    · exact nomatch hrunning.symm.trans hover.running
  exhausted := fun s hs => hs.exhausted

end Upholds

/-! ## Runs -/

section Runs
variable [Add τ] [Sub τ] [Zero τ] [LE τ] [LT τ] [DecidableLE τ] [DecidableLT τ]

/-- **The journal of a run.** -/
def journal (env : Environment τ σ ε) (fuel : Nat) (m : Machine τ σ) :
    Clock.Journal τ Beat (Rig σ) :=
  (Clock.stateLeft (Clock.performJournaled (clockHost env) fuel
    (runTask m.tickInterval m.timerInterval) (m.clock, ([], m.rig)))).2.1

/-- **The clock of a machine with the two sources** that a run adds. -/
def provided (env : Environment τ σ ε) (m : Machine τ σ) : Clock τ Beat :=
  (m.clock.schedule (source .tick m.tickInterval) (env.now m.rig.host + m.tickInterval)).schedule
    (source .timer m.timerInterval) (env.now m.rig.host + m.timerInterval)

/-- What is noted of it. -/
def additions (m : Machine τ σ) : Clock.Journal τ Beat (Rig σ) :=
  [.added (source .tick m.tickInterval) m.rig, .added (source .timer m.timerInterval) m.rig]

omit [Sub τ] [Zero τ] in
theorem sources_provided (env : Environment τ σ ε) (m : Machine τ σ) :
    ((m.provided env).events.toList.map (·.source)).Perm
      (source .timer m.timerInterval :: source .tick m.tickInterval ::
        m.clock.events.toList.map (·.source)) := by
  let c := m.clock.schedule (source .tick m.tickInterval) (env.now m.rig.host + m.tickInterval)
  have hone := (Clock.events_schedule m.clock (source .tick m.tickInterval)
    (env.now m.rig.host + m.tickInterval)).map (·.source)
  have htwo := (Clock.events_schedule c (source .timer m.timerInterval)
    (env.now m.rig.host + m.timerInterval)).map (·.source)
  exact htwo.trans (hone.cons _)

/-- **A run adds the two sources and starts the clock,** if the processor has not halted. -/
theorem performJournaled_runTask (env : Environment τ σ ε) (fuel : Nat) {m : Machine τ σ}
    (htick : ¬ m.tickInterval ≤ 0) (htimer : ¬ m.timerInterval ≤ 0)
    (hrun : m.rig.cpu.processor.halted = false) :
    Clock.performJournaled (clockHost env) fuel (runTask m.tickInterval m.timerInterval)
        (m.clock, ([], m.rig)) =
      Clock.start (clockHost env).journaled fuel (m.provided env, (m.additions, m.rig)) := by
  let first := source .tick m.tickInterval
  let c := m.clock.schedule first (env.now m.rig.host + m.tickInterval)
  have hfirst : m.clock.add (env.now m.rig.host) first = .ok c := if_neg htick
  have hsecond : c.add (env.now m.rig.host) (source .timer m.timerInterval) =
      .ok (m.provided env) := if_neg htimer
  show Clock.Routine.run (clockHost env).journaled _ _
    (if m.rig.cpu.processor.halted then .done
      else addSources m.tickInterval m.timerInterval (.start .done) : Task τ σ ε).journaled _ = _
  rw [hrun]
  show (Clock.Routine.add first _).run (clockHost env).journaled _ _ (m.clock, ([], m.rig)) = _
  rw [Clock.run_add_of_ok hfirst]
  show (Clock.Routine.add _ _).run (clockHost env).journaled _ _
    (c, ([.added first m.rig], m.rig)) = _
  rw [Clock.run_add_of_ok hsecond]
  show (Clock.start (clockHost env).journaled fuel >>= fun _ => pure ())
    (m.provided env, (m.additions, m.rig)) = _
  rw [bind_pure_unit]

/-- The same without a journal. -/
theorem perform_runTask (env : Environment τ σ ε) (fuel : Nat) {m : Machine τ σ}
    (htick : ¬ m.tickInterval ≤ 0) (htimer : ¬ m.timerInterval ≤ 0)
    (hrun : m.rig.cpu.processor.halted = false) :
    Clock.perform (clockHost env) fuel (runTask m.tickInterval m.timerInterval) (m.clock, m.rig) =
      Clock.start (clockHost env) fuel (m.provided env, m.rig) := by
  have hhost := Clock.journaled_projectsTo (clockHost env)
  have hperform := Clock.projects_performJournaled (clockHost env) fuel
    (runTask m.tickInterval m.timerInterval) (m.clock, ([], m.rig))
  have hstart := Clock.projects_startWith hhost.told (Clock.projects_pass_loop hhost fuel).2
    (m.provided env, (m.additions, m.rig))
  rw [performJournaled_runTask env fuel htick htimer hrun] at hperform
  exact hperform.symm.trans hstart

/-- What a run leads to, with its journal. -/
theorem leaves_runTask (env : Environment τ σ ε) (fuel : Nat) (m : Machine τ σ)
    (htick : ¬ m.tickInterval ≤ 0) (htimer : ¬ m.timerInterval ≤ 0)
    (hrun : m.rig.cpu.processor.halted = false) (hidle : m.clock.running = false)
    (hempty : m.clock.events = .empty) :
    Clock.Leaves (· = (m.clock, ([], m.rig)))
      (Clock.Idled fun s =>
        Underway env m.tickInterval m.timerInterval m.clock.dispatched s ∧ Clock.Finished s)
      (fun i => Clock.Idled (Aborted env m.tickInterval m.timerInterval i))
      (Clock.performJournaled (clockHost env) fuel (runTask m.tickInterval m.timerInterval)) := by
  rintro _ rfl
  rw [performJournaled_runTask env fuel htick htimer hrun]
  have hsources : ((m.provided env).events.toList.map (·.source)).Perm
      [source .tick m.tickInterval, source .timer m.timerInterval] := by
    have hboth := m.sources_provided env
    rw [hempty] at hboth
    exact hboth.trans (.swap _ _ _)
  refine Clock.leaves_start (upholds_underway env _ _ m.clock.dispatched) fuel _
    ⟨hidle, rfl, ?_, .inl ⟨rfl, rfl, hsources, hrun⟩⟩
  -- neither hooks nor stops so far
  intro h hh reason hasks
  obtain ⟨_, hook, _⟩ := hasks
  have hmem : h ∈ [.added (source .tick m.tickInterval) m.rig,
    .added (source .timer m.timerInterval) m.rig,
    .told (.started (m.provided env).events.size) m.rig] := hh
  rcases List.mem_cons.mp hmem with rfl | hmem
  · cases hook
  · rcases List.mem_cons.mp hmem with rfl | hmem
    · cases hook
    · rw [List.mem_singleton.mp hmem] at hook
      cases hook

/-- **How a run ends.**  A machine starts whose processor has not halted, on a clock that is not
    running and has no events, with intervals that the clock accepts.

    If the run returns, the clock is not running and has no events.  Either the processor has halted,
    by the last firing of all; or a hook has come to ask for the clock to be stopped.  The clock has
    counted as many firings more as there were.

    If in the course of anything that happens a hook comes to a failure of its own, the run ends with
    that failure.  The clock is not running, and the two sources are scheduled unless the clock has
    been stopped. -/
theorem run_ends (env : Environment τ σ ε) (fuel : Nat) (m : Machine τ σ)
    (htick : ¬ m.tickInterval ≤ 0) (htimer : ¬ m.timerInterval ≤ 0)
    (hrun : m.rig.cpu.processor.halted = false) (hidle : m.clock.running = false)
    (hempty : m.clock.events = .empty) :
    let after := (m.run env fuel).1
    let journal := m.journal env fuel
    ((m.run env fuel).2 = none →
      after.clock.running = false ∧ after.clock.events = .empty ∧
      (after.rig.cpu.processor.halted = true → HaltedLast env journal) ∧
      (after.rig.cpu.processor.halted = false → ∃ h ∈ journal, Asks env h .stopClock) ∧
      after.clock.dispatched = m.clock.dispatched +
        (Clock.Journal.firings (fun rig => env.now rig.host) journal).length) ∧
    ∀ h ∈ journal, ∀ reason, Asks env h (.fail reason) →
      (m.run env fuel).2 = some (.failed (.host reason)) ∧ after.clock.running = false ∧
      ((Clock.Journal.stopped journal = false ∧ (after.clock.events.toList.map (·.source)).Perm
          [source .tick m.tickInterval, source .timer m.timerInterval]) ∨
        (Clock.Journal.stopped journal = true ∧ after.clock.events = .empty)) := by
  intro after journal
  have hleft := leaves_runTask env fuel m htick htimer hrun hidle hempty _ rfl
  have hsame := Clock.projects_performJournaled (clockHost env) fuel
    (runTask m.tickInterval m.timerInterval) (m.clock, ([], m.rig))
  have hjournal : journal = (Clock.stateLeft (Clock.performJournaled (clockHost env) fuel
    (runTask m.tickInterval m.timerInterval) (m.clock, ([], m.rig)))).2.1 := rfl
  -- keeping a journal changes nothing, so the run ends as the one with a journal does
  revert hleft hsame hjournal
  rcases Clock.performJournaled (clockHost env) fuel (runTask m.tickInterval m.timerInterval)
    (m.clock, ([], m.rig)) with ⟨u, t⟩ | ⟨i, t⟩
  · rintro ⟨running, ⟨hunder, hfinished⟩, hstill⟩ hsame hjournal
    have hjournal : journal = t.2.1 := hjournal
    have hresult : m.run env fuel = ({ m with clock := t.1, rig := t.2.2 }, none) := by
      rw [run, perform, ← show _ = Clock.perform (clockHost env) fuel _ (m.clock, m.rig) from hsame]
      rfl
    have hafter : after = { m with clock := t.1, rig := t.2.2 } := congrArg Prod.fst hresult
    have hover := hunder.over hfinished
    rw [hafter, hjournal]
    refine ⟨fun _ => ⟨hstill, hover.events, hover.halted, hover.asked, hunder.counted⟩, ?_⟩
    exact fun h hh reason hasks => absurd hasks (hunder.unfailed h hh reason)
  · rintro ⟨running, haborted, hstill⟩ hsame hjournal
    have hjournal : journal = t.2.1 := hjournal
    have hresult : m.run env fuel = ({ m with clock := t.1, rig := t.2.2 }, some i) := by
      rw [run, perform, ← show _ = Clock.perform (clockHost env) fuel _ (m.clock, m.rig) from hsame]
      rfl
    have hafter : after = { m with clock := t.1, rig := t.2.2 } := congrArg Prod.fst hresult
    rw [hafter, hjournal]
    constructor
    · intro hreturned
      rw [hresult] at hreturned
      cases hreturned
    · intro h hh reason hasks
      rw [hresult, haborted.cause h hh reason hasks]
      exact ⟨rfl, hstill, haborted.scheduled⟩

/-- Two machines whose ticks and timer are due together, with a host that fails on every text.  One
    halts at its first tick, and the timer is not fired any more; the other one puts out a text. -/
theorem run_ends_of_two_programs :
    let env : Environment Seconds Seconds String :=
      ⟨⟨fun now _ => (now, [.fail "closed"])⟩, id, fun now d => (now + d, [])⟩
    let halting : Machine Seconds Seconds := ofMemory (.holding [0x1b]) 0.5 0.5 none 1.0
    let printing : Machine Seconds Seconds := ofMemory (.holding [0x06, 0x00]) 0.5 0.5 none 1.0
    (halting.run env 9).2 = none ∧ HaltedLast env (halting.journal env 9) ∧
      (halting.run env 9).1.clock.dispatched = 1 ∧
      (printing.run env 9).2 = some (.failed (.host "closed")) ∧
      (printing.run env 9).1.clock.running = false := by
  intro env halting printing
  have hreturned : (halting.run env 9).2 = none :=
    Option.isNone_iff_eq_none.mp (by decide +kernel)
  obtain ⟨hreturns, _⟩ := run_ends env 9 halting (by decide +kernel) (by decide +kernel) rfl rfl rfl
  obtain ⟨_, _, hhalted, _, hcounted⟩ := hreturns hreturned
  have hlength : (Clock.Journal.firings (fun rig => env.now rig.host) (halting.journal env 9)).length
      = 1 := by decide +kernel
  have hcalled : ∃ h ∈ printing.journal env 9, [.fail "closed"] ∈ hooks env h := by decide +kernel
  obtain ⟨h, hh, hook⟩ := hcalled
  obtain ⟨_, hfails⟩ := run_ends env 9 printing (by decide +kernel) (by decide +kernel) rfl rfl rfl
  obtain ⟨hfailed, hidle, _⟩ := hfails h hh "closed" ⟨_, hook, .first []⟩
  rw [hlength] at hcounted
  exact ⟨hreturned, hhalted (by decide +kernel), hcounted, hfailed, hidle⟩

end Runs

end Machine

end Ls8
