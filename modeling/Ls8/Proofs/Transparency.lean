import Ls8.Proofs.MachineHistory
import Ls8.Proofs.Trace.Untraced

/-
  Diagnostics are transparent.

  The machine lists every diagnostic and keeps a trace whenever it has a recorder; which of the
  diagnostics are printed is decided by the categories afterwards.  Here is the machine that decides
  it at once: where a category is not enabled nothing is listed (`clockHostUnder`, `actUnder`).  What
  it does is compared with what it does when it has no recorder and no category is enabled.

  1. **Listing.**  Effects are appended to what was listed before and never read.  So listing under
     few categories is listing under more of them and keeping the few (`view_listing`).

  2. **One routine.**  What a rig has in view (`Rig.view`) is its processor without what may be
     forgotten of it, its host, and the effects that are listed under few categories.  Ticks, firings
     of the timer and sleeps do to what is in view what they do to the rig (`projects_tickUnder`,
     `clockHostUnder_projectsTo`).

  3. **Runs and histories.**  So do runs, with their firings in between, and so do histories with their
     answers (`firingsUnder_view`, `history_actUnder_view`).  This is used twice: to forget the
     recorder and drop all diagnostics, and to forget nothing and go from all categories, where the
     machine is the machine itself (`actUnder_all`), to those that are enabled.

  Main statement: `diagnostics_are_transparent`.
-/

namespace Ls8

variable {τ σ ε γ : Type}

/-! ## Machines under categories -/

/-- Whether an effect is listed if these categories are enabled: only a diagnostic may not be. -/
def Effect.listedUnder (cs : Categories) : Effect → Bool
  | .diagnostic d => cs.enables d.category
  | .output _ | .report _ | .stopClock => true

namespace Machine

/-- One tick of a processor whose diagnostics are listed under categories. -/
def tickUnder (cs : Categories) (env : Environment τ σ ε) : Task τ σ ε :=
  .read fun rig =>
    let turn := rig.cpu.tick env.output rig.host
    .write { rig with cpu := turn.cpu, host := turn.host }
      (carryOut turn.failure (turn.effects.filter (Effect.listedUnder cs)))

/-- **The host of a clock,** the notices of which are listed under categories as well. -/
def clockHostUnder (cs : Categories) (env : Environment τ σ ε) :
    Clock.Host τ Beat (Rig σ) (HostFailure ε) where
  now rig := env.now rig.host
  fire
    | .tick => tickUnder cs env
    | .timer => timer
  sleep := sleep env
  told notice rig := rig.listing (Effect.listedUnder cs) [.diagnostic notice.diagnostic]

/-- Loads a program file; what is told of it is listed under categories. -/
def loadUnder (cs : Categories) (m : Machine τ σ) (bytes : List UInt8) (name : String) :
    Machine τ σ × Except LoadError ProgramImage :=
  let cpu := m.rig.cpu
  let loading := loadFile bytes 0 name cpu.processor.memory
  let m := m.withCpu { cpu with processor := { cpu.processor with memory := loading.memory } }
  match loading.result with
  | .ok image =>
    ({ m with rig := m.rig.listing (Effect.listedUnder cs) [.diagnostic image.report] }, .ok image)
  | .error e => (m, .error e)

section Acting
variable [Add τ] [Sub τ] [Zero τ] [LE τ] [LT τ] [DecidableLE τ] [DecidableLT τ]

/-- Performs a task under categories. -/
def performUnder (cs : Categories) (env : Environment τ σ ε) (fuel : Nat) (task : Task τ σ ε)
    (m : Machine τ σ) : Machine τ σ × Option (Interruption ε) :=
  match Clock.perform (clockHostUnder cs env) fuel task (m.clock, m.rig) with
  | .ok _ (clock, rig) => ({ m with clock := clock, rig := rig }, none)
  | .error i (clock, rig) => ({ m with clock := clock, rig := rig }, some i)

/-- **Runs a machine** under categories. -/
def runUnder (cs : Categories) (env : Environment τ σ ε) (fuel : Nat) (m : Machine τ σ) :
    Machine τ σ × Option (Interruption ε) :=
  m.performUnder cs env fuel (runTask m.tickInterval m.timerInterval)

/-- The firings of a run under categories, each with the rig that it found. -/
def firingsUnder (cs : Categories) (env : Environment τ σ ε) (fuel : Nat) (m : Machine τ σ) :
    Clock.Log Beat (Rig σ) :=
  Clock.firings (clockHostUnder cs env) fuel (runTask m.tickInterval m.timerInterval)
    (m.clock, m.rig)

/-- **One action of the host** under categories. -/
def actUnder (cs : Categories) (env : Environment τ σ ε) :
    Machine τ σ → MachineAction → Machine τ σ × Answer ε :=
  actBy (performUnder cs env 0 (tickUnder cs env)) (runUnder cs env) (loadUnder cs)

end Acting

end Machine

/-! ## Listing -/

/-- The categories that are enabled are enabled in another list as well. -/
def Categories.Within (few many : Categories) : Prop :=
  ∀ category, few.enables category = true → many.enables category = true

/-- Where no category is enabled, every other list has more. -/
theorem Categories.none_within (cs : Categories) : Categories.none.Within cs :=
  fun _ h => nomatch h

section Listing
variable {few many : Categories}

theorem Effect.listedUnder_of_within (hle : few.Within many) {e : Effect}
    (h : e.listedUnder few = true) : e.listedUnder many = true := by
  cases e with
  | diagnostic d => exact hle d.category h
  | output | report | stopClock => rfl

/-- To keep few of what was listed is to list few. -/
theorem filter_listedUnder (hle : few.Within many) (effects : List Effect) :
    (effects.filter (Effect.listedUnder many)).filter (Effect.listedUnder few) =
      effects.filter (Effect.listedUnder few) := by
  rw [List.filter_filter]
  refine List.filter_congr fun e _ => ?_
  cases h : e.listedUnder few with
  | false => rfl
  | true => rw [Effect.listedUnder_of_within hle h]; rfl

/-- To drop diagnostics before the clock is told of a stop is to drop them afterwards. -/
theorem filter_listed_filter (cs : Categories) (n : Nat) (effects : List Effect) :
    ((effects.filter (Effect.listedUnder cs)).map (.listed n)).filter (Effect.listedUnder cs) =
      (effects.map (.listed n)).filter (Effect.listedUnder cs) := by
  induction effects with
  | nil => rfl
  | cons e rest ih =>
    cases h : e.listedUnder cs with
    | true =>
      rw [List.filter_cons_of_pos h, List.map_cons, List.map_cons, List.filter_cons,
        List.filter_cons, ih]
    | false =>
      -- what is dropped is a diagnostic, and looks like itself
      have hlisted : e.listed n = e := by
        cases e with
        | stopClock => cases h
        | output | report | diagnostic => rfl
      rw [List.filter_cons_of_neg (by simp [h]), List.map_cons, hlisted,
        List.filter_cons_of_neg (by simp [h]), ih]

end Listing

/-! ## Rigs with less in view -/

/-- **A rig in the view** of somebody who forgets something of the processor and for whom only these
    categories are enabled. -/
def Rig.view (forget : Cpu → Cpu) (cs : Categories) (rig : Rig σ) : Rig σ :=
  ⟨forget rig.cpu, rig.host, rig.effects.filter (Effect.listedUnder cs)⟩

namespace Rig

/-- The rig after a tick the effects of which are listed under categories. -/
def tickedUnder (cs : Categories) (outlet : Outlet σ ε) (rig : Rig σ) (dispatched : Nat) : Rig σ :=
  let turn := rig.cpu.tick outlet rig.host
  Rig.listing (Effect.listedUnder cs) ⟨turn.cpu, turn.host, rig.effects⟩
    (turn.effects.map (.listed dispatched))

section View
variable {forget : Cpu → Cpu} {few many : Categories}

/-- Listing under few categories is what is seen of listing under many. -/
theorem view_listing (hle : few.Within many) (rig : Rig σ) (effects : List Effect) :
    (rig.listing (Effect.listedUnder many) effects).view forget few =
      (rig.view forget few).listing (Effect.listedUnder few) effects := by
  have heffects : ((rig.listing (Effect.listedUnder many) effects).view forget few).effects =
      ((rig.view forget few).listing (Effect.listedUnder few) effects).effects := by
    rw [← Array.toList_inj, toList_effects_listing, view, view, Array.toList_filter,
      toList_effects_listing, List.filter_append, filter_listedUnder hle, Array.toList_filter]
  exact congrArg (Rig.mk _ _) heffects

theorem view_withProcessor {cs : Categories} (h : Cpu.Forgets forget) (rig : Rig σ) (p : Processor) :
    Rig.view forget cs { rig with cpu := rig.cpu.withProcessor p } =
      { rig.view forget cs with cpu := (rig.view forget cs).cpu.withProcessor p } :=
  congrArg (Rig.mk · _ _) (h.withProcessor rig.cpu p)

theorem view_timer {cs : Categories} (h : Cpu.Forgets forget) (rig : Rig σ) :
    Rig.view forget cs { rig with cpu := rig.cpu.timer } =
      { rig.view forget cs with cpu := (rig.view forget cs).cpu.timer } :=
  congrArg (Rig.mk · _ _) (h.timer rig.cpu).symm

theorem tick_view (h : Cpu.Forgets forget) (outlet : Outlet σ ε) (rig : Rig σ) :
    (rig.view forget few).cpu.tick outlet (rig.view forget few).host =
      { rig.cpu.tick outlet rig.host with cpu := forget (rig.cpu.tick outlet rig.host).cpu } :=
  h.tick outlet rig.cpu rig.host

/-- **A tick seen with less in view** is a tick of what is in view. -/
theorem view_tickedUnder (h : Cpu.Forgets forget) (hle : few.Within many) (outlet : Outlet σ ε)
    (rig : Rig σ) (n : Nat) :
    (rig.tickedUnder many outlet n).view forget few =
      (rig.view forget few).tickedUnder few outlet n := by
  rw [tickedUnder, view_listing hle, tickedUnder, tick_view h]
  rfl

/-- Requests that are served with less in view. -/
theorem view_served (h : Cpu.Forgets forget) (hle : few.Within many) (rig : Rig σ) (n : Nat)
    (requests : List (Request ε)) :
    (rig.served (Effect.listedUnder many) n requests).view forget few =
      (rig.view forget few).served (Effect.listedUnder few) n requests := by
  have hprocessor : (rig.view forget few).cpu.processor = rig.cpu.processor := h.processor rig.cpu
  have hcpu : (rig.view forget few).cpu.withProcessor (rig.cpu.processor.serve requests).1 =
      forget (rig.cpu.withProcessor (rig.cpu.processor.serve requests).1) :=
    (h.withProcessor rig.cpu _).symm
  simp only [served, hprocessor, hcpu]
  exact view_listing hle _ _

end View

end Rig

/-! ## Runs with less in view -/

section Runs
variable [Add τ] [Zero τ] [LE τ] [LT τ] [DecidableLE τ] [DecidableLT τ]
variable {forget : Cpu → Cpu} {few many : Categories}

omit [Add τ] [Zero τ] [LE τ] [LT τ] [DecidableLE τ] [DecidableLT τ] in
/-- The host under categories lists what they enable. -/
theorem lists_loggedUnder (cs : Categories) (env : Environment τ σ ε) :
    Lists (Effect.listedUnder cs) (Machine.clockHostUnder cs env).logged :=
  fun _ _ _ => rfl

/-- **A tick on the clock** under categories. -/
theorem run_tickUnder {cs : Categories} {big : Clock.Host τ Beat (γ × Rig σ) (HostFailure ε)}
    (hlists : Lists (Effect.listedUnder cs) big) (env : Environment τ σ ε)
    {pending : Clock.Work τ Beat (γ × Rig σ) (HostFailure ε) Nat}
    {started : Clock.Work τ Beat (γ × Rig σ) (HostFailure ε) Unit} (c : Clock τ Beat) (g : γ)
    (rig : Rig σ) :
    ((Machine.tickUnder cs env).beside γ).run big pending started (c, (g, rig)) =
      Clock.concluded ((rig.cpu.tick env.output rig.host).failure.map .host)
        (c.stopIf (decide (.stopClock ∈ (rig.cpu.tick env.output rig.host).effects)),
          (g, rig.tickedUnder cs env.output c.dispatched)) := by
  -- a stop is listed under all categories
  have hstop : (Effect.stopClock ∈
      (rig.cpu.tick env.output rig.host).effects.filter (Effect.listedUnder cs)) ↔
        .stopClock ∈ (rig.cpu.tick env.output rig.host).effects := by
    rw [List.mem_filter]
    exact and_iff_left rfl
  show ((Machine.carryOut _ ((rig.cpu.tick env.output rig.host).effects.filter
    (Effect.listedUnder cs))).beside γ).run big pending started (c, (g, _)) = _
  rw [run_carryOut hlists _ _ fun e he _ => (List.mem_filter.mp he).2, Rig.listing,
    filter_listed_filter, decide_eq_decide.mpr hstop]
  rfl

/-- What a tick does to a log and to the rig beside it, with less in view. -/
theorem projects_tickUnder (h : Cpu.Forgets forget) (hle : few.Within many)
    (env : Environment τ σ ε)
    (pending pending' : Clock.Work τ Beat (Clock.Log Beat (Rig σ) × Rig σ) (HostFailure ε) Nat)
    (started started' : Clock.Work τ Beat (Clock.Log Beat (Rig σ) × Rig σ) (HostFailure ε) Unit) :
    Clock.Projects (Clock.projectedLog (Rig.view forget few))
      (((Machine.tickUnder many env).beside _).run (Machine.clockHostUnder many env).logged
        pending started)
      (((Machine.tickUnder few env).beside _).run (Machine.clockHostUnder few env).logged
        pending' started') := by
  rintro ⟨c, log, rig⟩
  show _ = ((Machine.tickUnder few env).beside _).run _ _ _
    (c, (log.map (Prod.map id (Rig.view forget few)), rig.view forget few))
  rw [run_tickUnder (lists_loggedUnder many env), run_tickUnder (lists_loggedUnder few env),
    Clock.projectedResult_concluded, Rig.tick_view h, ← Rig.view_tickedUnder h hle]
  rfl

/-- **The host of a machine with less in view** does what the host of the machine does. -/
theorem clockHostUnder_projectsTo (h : Cpu.Forgets forget) (hle : few.Within many)
    (env : Environment τ σ ε) :
    (Machine.clockHostUnder many env).logged.ProjectsTo (Clock.projectedLog (Rig.view forget few))
      (Machine.clockHostUnder few env).logged where
  now _ := rfl
  told n s := congrArg (Prod.mk _) (Rig.view_listing hle s.2 [.diagnostic n.diagnostic])
  fire := by
    rintro beat pending pending' started started' _ _ ⟨c, log, rig⟩
    -- the firing is noted first
    have hlog : (log ++ [(beat, rig)]).map (Prod.map id (Rig.view forget few)) =
        log.map (Prod.map id (Rig.view forget few)) ++ [(beat, rig.view forget few)] :=
      List.map_append
    cases beat with
    | tick =>
      have hfired := projects_tickUnder h hle env pending pending' started started'
        (c, (log ++ [(.tick, rig)], rig))
      rw [Clock.projected, Clock.projectedLog, hlog] at hfired
      exact hfired
    | timer =>
      show _ = Clock.concluded none (c, (log.map _ ++ [(Beat.timer, rig.view forget few)],
        { rig.view forget few with cpu := (rig.view forget few).cpu.timer }))
      rw [← hlog, ← Rig.view_timer h]
      rfl
  sleep := by
    rintro d pending pending' started started' _ _ ⟨c, log, rig⟩
    -- what the host asks for is the same, and it is asked of the same processor
    have hprocessor : (rig.view forget few).cpu.processor = rig.cpu.processor :=
      h.processor rig.cpu
    have hserved := Rig.view_served h hle { rig with host := (env.sleep rig.host d).1 }
      c.dispatched (env.sleep rig.host d).2
    show Clock.projectedResult _ (((Machine.sleep env d).beside _).run _ _ _ (c, (log, rig))) =
      ((Machine.sleep env d).beside _).run _ _ _ (c, (log.map _, rig.view forget few))
    rw [run_sleep (lists_loggedUnder many env), run_sleep (lists_loggedUnder few env),
      Clock.projectedResult_concluded, hprocessor]
    exact congrArg (fun seen => Clock.concluded _ (_, (_, seen))) hserved

variable [Sub τ]

/-- A tick by hand, with less in view. -/
theorem projects_performLogged_tickUnder (h : Cpu.Forgets forget) (hle : few.Within many)
    (env : Environment τ σ ε) (fuel : Nat) :
    Clock.Projects (Clock.projectedLog (Rig.view forget few))
      (Clock.performLogged (Machine.clockHostUnder many env) fuel (Machine.tickUnder many env))
      (Clock.performLogged (Machine.clockHostUnder few env) fuel (Machine.tickUnder few env)) :=
  Clock.projects_perform (clockHostUnder_projectsTo h hle env) fuel
    fun pending pending' started started' _ _ =>
      projects_tickUnder h hle env pending pending' started started'

/-- **A run, with less in view.** -/
theorem projects_performLogged_runTask (h : Cpu.Forgets forget) (hle : few.Within many)
    (env : Environment τ σ ε) (fuel : Nat) (tickInterval timerInterval : τ) :
    Clock.Projects (Clock.projectedLog (Rig.view forget few))
      (Clock.performLogged (Machine.clockHostUnder many env) fuel
        (Machine.runTask tickInterval timerInterval))
      (Clock.performLogged (Machine.clockHostUnder few env) fuel
        (Machine.runTask tickInterval timerInterval)) := by
  have hhost := clockHostUnder_projectsTo h hle env
  refine Clock.projects_perform hhost fuel ?_
  rintro pending pending' started started' _ hstarted ⟨c, log, rig⟩
  have hhalted : (rig.view forget few).cpu.processor.halted = rig.cpu.processor.halted :=
    congrArg Processor.halted (h.processor rig.cpu)
  show Clock.projectedResult _ (Clock.Routine.run _ pending started
      (Clock.Routine.beside _ (if rig.cpu.processor.halted then .done
        else Machine.addSources tickInterval timerInterval (.start .done))) (c, (log, rig))) =
    Clock.Routine.run _ pending' started'
      (Clock.Routine.beside _ (if (rig.view forget few).cpu.processor.halted then .done
        else Machine.addSources tickInterval timerInterval (.start .done)))
      (c, (log.map _, rig.view forget few))
  rw [hhalted]
  split
  · rfl
  · exact Clock.projects_add hhost.now (Clock.projects_add hhost.now
      (hstarted.bind fun _ _ => rfl)) (c, (log, rig))

end Runs

/-! ## Machines with less in view -/

/-- A machine in the view of somebody who forgets something of the processor and for whom only these
    categories are enabled. -/
def Machine.view (forget : Cpu → Cpu) (cs : Categories) (m : Machine τ σ) : Machine τ σ :=
  { m with rig := m.rig.view forget cs }

namespace Machine

section View
variable [Add τ] [Sub τ] [Zero τ] [LE τ] [LT τ] [DecidableLE τ] [DecidableLT τ]
variable {forget : Cpu → Cpu} {few many : Categories}

theorem performUnder_view {env : Environment τ σ ε} {fuel : Nat} {task task' : Task τ σ ε}
    (h : Clock.Projects (Rig.view forget few) (Clock.perform (clockHostUnder many env) fuel task)
      (Clock.perform (clockHostUnder few env) fuel task')) (m : Machine τ σ) :
    (m.view forget few).performUnder few env fuel task' =
      ((m.performUnder many env fuel task).1.view forget few,
        (m.performUnder many env fuel task).2) := by
  have hseen : _ = Clock.perform (clockHostUnder few env) fuel task'
      ((m.view forget few).clock, (m.view forget few).rig) := h (m.clock, m.rig)
  rw [performUnder, performUnder, ← hseen]
  cases Clock.perform (clockHostUnder many env) fuel task (m.clock, m.rig) <;> rfl

omit [Add τ] [Sub τ] [Zero τ] [LE τ] [LT τ] [DecidableLE τ] [DecidableLT τ] in
/-- A program is loaded, or refused, with less in view. -/
theorem loadUnder_view (h : Cpu.Forgets forget) (hle : few.Within many) (m : Machine τ σ)
    (bytes : List UInt8) (name : String) :
    (m.view forget few).loadUnder few bytes name =
      ((m.loadUnder many bytes name).1.view forget few, (m.loadUnder many bytes name).2) := by
  have hprocessor : (m.view forget few).rig.cpu.processor = m.rig.cpu.processor :=
    h.processor m.rig.cpu
  rw [loadUnder, loadUnder]
  simp only [hprocessor]
  generalize loadFile bytes 0 name m.rig.cpu.processor.memory = loading
  have hloaded : Rig.view forget few _ = _ := Rig.view_withProcessor h m.rig
    { m.rig.cpu.processor with memory := loading.memory }
  cases loading.result with
  | error e => exact congrArg (fun rig => ({ m with rig := rig }, Except.error e)) hloaded.symm
  | ok image =>
    have htold := congrArg
      (Rig.listing (Effect.listedUnder few) · [.diagnostic image.report]) hloaded
    exact congrArg (fun rig => ({ m with rig := rig }, Except.ok image))
      ((Rig.view_listing hle _ _).trans htold).symm

/-- **One action, with less in view.** -/
theorem actUnder_view (h : Cpu.Forgets forget) (hle : few.Within many) (env : Environment τ σ ε)
    (m : Machine τ σ) (a : MachineAction) :
    (m.view forget few).actUnder few env a =
      ((m.actUnder many env a).1.view forget few, (m.actUnder many env a).2) := by
  cases a with
  | tick =>
    have htick := performUnder_view (Clock.projects_perform_of_logged
      (projects_performLogged_tickUnder h hle env 0)) m
    exact congrArg (fun left => (left.1, Answer.worked left.2)) htick
  | run fuel =>
    have hrun := performUnder_view (Clock.projects_perform_of_logged
      (projects_performLogged_runTask h hle env fuel m.tickInterval m.timerInterval)) m
    exact congrArg (fun left => (left.1, Answer.worked left.2)) hrun
  | poke a value =>
    have hpoke : (m.view forget few).rig.cpu.poke a value = (m.rig.cpu.poke a value).map forget :=
      h.poke m.rig.cpu a value
    rw [actUnder, actBy, hpoke, actUnder, actBy]
    cases m.rig.cpu.poke a value <;> rfl
  | raise line =>
    have hraise : (m.view forget few).rig.cpu.raise line = (m.rig.cpu.raise line).map forget :=
      h.raise m.rig.cpu line
    rw [actUnder, actBy, hraise, actUnder, actBy]
    cases m.rig.cpu.raise line <;> rfl
  | timer =>
    have htimer : Rig.view forget few _ = _ := Rig.view_timer h m.rig
    exact congrArg (fun rig => ({ m with rig := rig }, Answer.worked none)) htimer.symm
  | load bytes name =>
    have hload := loadUnder_view h hle m bytes name
    exact congrArg (fun left => (left.1, Answer.loaded left.2)) hload

/-- **A history, with less in view.** -/
theorem history_actUnder_view (h : Cpu.Forgets forget) (hle : few.Within many)
    (env : Environment τ σ ε) (m : Machine τ σ) (actions : List MachineAction) :
    (m.view forget few).history (actUnder few env) actions =
      ((m.history (actUnder many env) actions).1.view forget few,
        (m.history (actUnder many env) actions).2) :=
  history_map (actUnder_view h hle env) m actions

/-- **The firings of a run, with less in view.** -/
theorem firingsUnder_view (h : Cpu.Forgets forget) (hle : few.Within many)
    (env : Environment τ σ ε) (fuel : Nat) (m : Machine τ σ) :
    (m.view forget few).firingsUnder few env fuel =
      (m.firingsUnder many env fuel).map (Prod.map id (Rig.view forget few)) :=
  (Clock.firings_of_logged (projects_performLogged_runTask h hle env fuel m.tickInterval
    m.timerInterval) m.clock m.rig).symm

end View

end Machine

/-! ## Listing everything -/

/-- All categories. -/
def Categories.all : Categories := ⟨["all"]⟩

/-- No other list has more. -/
theorem Categories.within_all (cs : Categories) : cs.Within all := fun _ _ => rfl

theorem Effect.listedUnder_all (e : Effect) : e.listedUnder .all = true := by cases e <;> rfl

theorem filter_listedUnder_all (effects : List Effect) :
    effects.filter (Effect.listedUnder .all) = effects :=
  List.filter_eq_self.mpr fun e _ => e.listedUnder_all

namespace Machine

theorem tickUnder_all (env : Environment τ σ ε) : tickUnder .all env = tick env := by
  simp only [tickUnder, filter_listedUnder_all]
  rfl

/-- **The host under all categories** is the host of the machine. -/
theorem clockHostUnder_all (env : Environment τ σ ε) : clockHostUnder .all env = clockHost env := by
  have hfire : (clockHostUnder .all env).fire = beat env := by
    funext b
    cases b with
    | tick => exact tickUnder_all env
    | timer => rfl
  have htold : (clockHostUnder .all env).told = (clockHost env).told :=
    funext fun n => funext fun rig => (rig.did_eq_listing (Effect.listedUnder_all _)).symm
  exact (Clock.Host.mk.injEq ..).mpr ⟨rfl, hfire, rfl, htold⟩

theorem loadUnder_all (m : Machine τ σ) (bytes : List UInt8) (name : String) :
    m.loadUnder .all bytes name = m.load bytes name := by
  have htold (rig : Rig σ) (d : Diagnostic) :
      rig.listing (Effect.listedUnder .all) [.diagnostic d] = rig.did (.diagnostic d) :=
    (rig.did_eq_listing (Effect.listedUnder_all _)).symm
  simp only [loadUnder, htold]
  rfl

variable [Add τ] [Sub τ] [Zero τ] [LE τ] [LT τ] [DecidableLE τ] [DecidableLT τ]

/-- **Under all categories** a machine does what it does by itself. -/
theorem actUnder_all (env : Environment τ σ ε) :
    (actUnder .all env : Machine τ σ → _) = act env := by
  have hperform (fuel : Nat) (task : Task τ σ ε) :
      (performUnder .all env fuel task : Machine τ σ → _) = perform env fuel task := by
    funext m
    rw [performUnder, clockHostUnder_all]
    rfl
  have hload : (loadUnder .all : Machine τ σ → _) = load :=
    funext fun m => funext fun bytes => funext fun name => loadUnder_all m bytes name
  have hrun : (runUnder .all env : Nat → Machine τ σ → _) = run env :=
    funext fun fuel => funext fun m => congrFun (hperform fuel _) m
  rw [actUnder, hperform, tickUnder_all, hrun, hload, act]

theorem firingsUnder_all (env : Environment τ σ ε) (fuel : Nat) (m : Machine τ σ) :
    m.firingsUnder .all env fuel = m.firings env fuel := by
  rw [firingsUnder, firings, clockHostUnder_all]

end Machine

/-! ## Printing -/

namespace Rig

/-- **What is not listed prints nothing.** -/
theorem errorLines_view (forget : Cpu → Cpu) (cs : Categories) (rig : Rig σ) :
    (rig.view forget cs).effects.toList.flatMap (Machine.errorLines cs) =
      rig.effects.toList.flatMap (Machine.errorLines cs) := by
  rw [view, Array.toList_filter]
  induction rig.effects.toList with
  | nil => rfl
  | cons e rest ih =>
    cases h : e.listedUnder cs with
    | true => rw [List.filter_cons_of_pos h, List.flatMap_cons, List.flatMap_cons, ih]
    | false =>
      have hsilent : Machine.errorLines cs e = [] := by
        cases e with
        | output | stopClock => rfl
        | report => cases h
        | diagnostic d => exact if_neg (Bool.eq_false_iff.mp h)
      rw [List.filter_cons_of_neg (by simp [h]), List.flatMap_cons, hsilent, ih, List.nil_append]

/-- Where no category is enabled, the reports of faults are all that is printed. -/
theorem errorLines_none (rig : Rig σ) :
    rig.effects.toList.flatMap (Machine.errorLines .none) = rig.reports := by
  rw [reports]
  induction rig.effects.toList with
  | nil => rfl
  | cons e rest ih =>
    rw [List.flatMap_cons, ih]
    cases e <;> rfl

end Rig

/-! ## A processor without a clock -/

namespace Rig

section Bare
variable {forget : Cpu → Cpu}

theorem view_all (forget : Cpu → Cpu) (rig : Rig σ) :
    rig.view forget .all = { rig with cpu := forget rig.cpu } := by
  have heffects : rig.effects.filter (Effect.listedUnder .all) = rig.effects := by
    rw [← Array.toList_inj, Array.toList_filter, filter_listedUnder_all]
  rw [view, heffects]

theorem act_view (h : Cpu.Forgets forget) (outlet : Outlet σ ε) (rig : Rig σ) (a : HostAction) :
    (rig.view forget .all).act outlet a = (rig.act outlet a).view forget .all := by
  rw [view_all, view_all]
  cases a with
  | tick =>
    rw [act, tick, h.tick]
    rfl
  | poke a value =>
    rw [act, h.poke, act]
    cases rig.cpu.poke a value <;> rfl
  | raise line =>
    rw [act, h.raise, act]
    cases rig.cpu.raise line <;> rfl
  | timer =>
    rw [act, h.timer]
    rfl
  | setRegister index value =>
    rw [act, h.processor, act]
    cases Processor.setRegister index (UInt8.ofInt value) rig.cpu.processor with
    | ok _ p => exact congrArg (Rig.mk · _ _) (h.withProcessor rig.cpu p).symm
    | error _ _ => rfl
  | setSp value =>
    rw [act, h.processor]
    exact congrArg (Rig.mk · _ _) (h.withProcessor rig.cpu _).symm

/-- **A history of a bare processor,** with less in view. -/
theorem run_view (h : Cpu.Forgets forget) (outlet : Outlet σ ε) (rig : Rig σ)
    (actions : List HostAction) :
    (rig.view forget .all).run outlet actions = (rig.run outlet actions).view forget .all := by
  induction actions generalizing rig with
  | nil => rfl
  | cons a rest ih => rw [run_cons, act_view h, ih, run_cons]

end Bare

end Rig

/-! ## Transparency -/

/-- **Diagnostics are transparent.**  A machine may have a recorder of any capacity, or none, and any
    categories may be enabled.  Without a recorder and under no category,

    * every history is answered alike and leaves the same machine but for the trace and the
      diagnostics: the same processor, memory, fault and count of ticks, the same clock, the same host,
      and the same outputs and reports in the same order;
    * every run fires the same commands, and each of them finds the same rig but for these.

    The machine itself lists everything; under categories, histories and runs do what they do when the
    other diagnostics are dropped afterwards.  What is dropped prints nothing, and where nothing is
    enabled the reports alone are printed.

    On a processor without a clock, every history leaves the same but for the trace, and so does the
    tick that follows, with the failure that may leave it. -/
theorem Machine.diagnostics_are_transparent
    [Add τ] [Sub τ] [Zero τ] [LE τ] [LT τ] [DecidableLE τ] [DecidableLT τ]
    (cs : Categories) (env : Environment τ σ ε) (m : Machine τ σ) (actions : List MachineAction) :
    (m.view Cpu.untraced .none).history (actUnder .none env) actions =
        ((m.history (actUnder cs env) actions).1.view Cpu.untraced .none,
          (m.history (actUnder cs env) actions).2) ∧
      (∀ fuel, (m.view Cpu.untraced .none).firingsUnder .none env fuel =
        (m.firingsUnder cs env fuel).map (Prod.map id (Rig.view Cpu.untraced .none))) ∧
      (m.view id cs).history (actUnder cs env) actions =
        ((m.history (act env) actions).1.view id cs, (m.history (act env) actions).2) ∧
      (∀ fuel, (m.view id cs).firingsUnder cs env fuel =
        (m.firings env fuel).map (Prod.map id (Rig.view id cs))) ∧
      (∀ rig : Rig σ,
        (rig.view id cs).effects.toList.flatMap (errorLines cs) =
            rig.effects.toList.flatMap (errorLines cs) ∧
          rig.effects.toList.flatMap (errorLines .none) = rig.reports) ∧
      ∀ (outlet : Outlet σ ε) (rig : Rig σ) (actions : List HostAction),
        (rig.view Cpu.untraced .all).run outlet actions =
            (rig.run outlet actions).view Cpu.untraced .all ∧
          ((rig.view Cpu.untraced .all).run outlet actions).cpu.tick outlet
              ((rig.view Cpu.untraced .all).run outlet actions).host =
            ((rig.run outlet actions).cpu.tick outlet (rig.run outlet actions).host).untraced := by
  refine ⟨history_actUnder_view Cpu.forgets_untraced (Categories.none_within cs) env m actions,
    fun fuel => firingsUnder_view Cpu.forgets_untraced (Categories.none_within cs) env fuel m, ?_,
    fun fuel => ?_, fun rig => ⟨rig.errorLines_view id cs, rig.errorLines_none⟩,
    fun outlet rig actions => ?_⟩
  · -- the machine itself is the machine under all categories
    rw [← actUnder_all]
    exact history_actUnder_view Cpu.forgets_id (Categories.within_all cs) env m actions
  · rw [← firingsUnder_all]
    exact firingsUnder_view Cpu.forgets_id (Categories.within_all cs) env fuel m
  · have hrun := Rig.run_view Cpu.forgets_untraced outlet rig actions
    rw [hrun]
    exact ⟨rfl, Cpu.tick_untraced outlet _ _⟩

end Ls8
