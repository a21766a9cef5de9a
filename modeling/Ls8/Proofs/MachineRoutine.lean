import Ls8.Proofs.Clock.Firings
import Ls8.Proofs.History

/-
  What the routines of a machine leave.

  A tick and a sleep use the clock for one thing only, which is to stop it.  So what each of them leaves
  can be said outright, without regard to what else the clock would do for it: the clock, stopped if
  that is among the effects; the rig, with the effects listed; and the failure, if there is one
  (`run_tick`, `run_sleep`).  A firing of the timer does not even stop the clock.

  A host may drop some of the effects and keep others, and there may be something beside the rig that
  no routine sees; so all this is stated for a host that lists the effects it keeps (`Lists`).

  From this follows what a machine keeps together with the log of its firings, by what ticks, firings
  of the timer, sleeps and notices keep (`keeps_logged`, `Machine.keeps_run`).
-/

namespace Ls8

variable {τ σ ε γ : Type}

/-- The clock after work that stops it or does not. -/
def Clock.stopIf {κ : Type} (c : Clock τ κ) (stop : Bool) : Clock τ κ := if stop then c.stop else c

section StopIf
variable {κ : Type} (c : Clock τ κ)

@[simp] theorem Clock.stopIf_true : c.stopIf true = c.stop := rfl

@[simp] theorem Clock.stopIf_false : c.stopIf false = c := rfl

/-- Stopping a second time does nothing. -/
@[simp] theorem Clock.stopIf_stop (stop : Bool) : c.stop.stopIf stop = c.stop := by
  cases stop <;> rfl

@[simp] theorem Clock.dispatched_stop : c.stop.dispatched = c.dispatched := rfl

end StopIf

/-- Why serving requests fails that ends so. -/
def Ending.failure : Ending ε → Option (HostFailure ε)
  | .done => none
  | .fault f => some (.fault f)
  | .failed reason => some (.host reason)

/-- How an effect is listed on a clock that has counted so many firings: for a stop stands what the
    clock tells of it. -/
def Effect.listed (dispatched : Nat) : Effect → Effect
  | .stopClock => .diagnostic (.clockStopped dispatched)
  | e => e

/-- Effects of which the clock is told look the same to the outside. -/
theorem filter_isVisible_listed (n : Nat) (effects : List Effect) :
    (effects.map (.listed n)).filter Effect.isVisible = effects.filter Effect.isVisible := by
  induction effects with
  | nil => rfl
  | cons e rest ih =>
    rw [List.map_cons, List.filter_cons, List.filter_cons, ih]
    cases e <;> rfl

namespace Rig

/-- The rig with more effects, of which some are kept. -/
def listing (keep : Effect → Bool) (rig : Rig σ) (effects : List Effect) : Rig σ :=
  { rig with effects := rig.effects ++ effects.filter keep }

@[simp] theorem cpu_listing (keep : Effect → Bool) (rig : Rig σ) (effects : List Effect) :
    (rig.listing keep effects).cpu = rig.cpu := rfl

@[simp] theorem host_listing (keep : Effect → Bool) (rig : Rig σ) (effects : List Effect) :
    (rig.listing keep effects).host = rig.host := rfl

theorem toList_effects_listing (keep : Effect → Bool) (rig : Rig σ) (effects : List Effect) :
    (rig.listing keep effects).effects.toList = rig.effects.toList ++ effects.filter keep :=
  Array.toList_appendList

theorem listing_append (keep : Effect → Bool) (rig : Rig σ) (effects more : List Effect) :
    rig.listing keep (effects ++ more) = (rig.listing keep effects).listing keep more := by
  simp [listing, ← Array.toList_inj]

/-- A kept effect. -/
theorem did_eq_listing {keep : Effect → Bool} {e : Effect} (h : keep e = true) (rig : Rig σ) :
    rig.did e = rig.listing keep [e] := by
  simp [listing, did, h]

/-- **The rig after a tick** on a clock that has counted so many firings. -/
def ticked (outlet : Outlet σ ε) (rig : Rig σ) (dispatched : Nat) : Rig σ :=
  let turn := rig.cpu.tick outlet rig.host
  Rig.listing (fun _ => true) ⟨turn.cpu, turn.host, rig.effects⟩ (turn.effects.map (.listed dispatched))

theorem visible_listing (rig : Rig σ) (effects : List Effect) :
    (rig.listing (fun _ => true) effects).visible =
      rig.visible ++ effects.filter Effect.isVisible := by
  rw [visible, visible, toList_effects_listing, List.filter_append]
  simp only [List.filter_filter, Bool.and_true]

/-- A tick on a clock looks like a tick without one. -/
theorem visible_ticked (outlet : Outlet σ ε) (rig : Rig σ) (n : Nat) :
    (rig.ticked outlet n).visible = (rig.tick outlet).visible := by
  rw [ticked, visible_listing, filter_isVisible_listed, visible, visible, tick,
    Array.toList_appendList, List.filter_append]

end Rig

/-! ## Running the routines -/

section Routines
variable [Add τ] [Zero τ] [LE τ] [LT τ] [DecidableLE τ] [DecidableLT τ]
variable {keep : Effect → Bool} {big : Clock.Host τ Beat (γ × Rig σ) (HostFailure ε)}
variable {pending : Clock.Work τ Beat (γ × Rig σ) (HostFailure ε) Nat}
variable {started : Clock.Work τ Beat (γ × Rig σ) (HostFailure ε) Unit}

/-- **A host lists the effects that it keeps:** the notices of its clock, and nothing else by
    itself. -/
def Lists (keep : Effect → Bool) (big : Clock.Host τ Beat (γ × Rig σ) (HostFailure ε)) : Prop :=
  ∀ n g rig, big.told n (g, rig) = (g, Rig.listing keep rig [.diagnostic (Clock.Notice.diagnostic n)])

omit [Add τ] [Zero τ] [LE τ] [LT τ] [DecidableLE τ] [DecidableLT τ] in
/-- The host of a machine lists everything. -/
theorem lists_logged (env : Environment τ σ ε) :
    Lists (fun _ => true) (Machine.clockHost env).logged :=
  fun _ _ rig => congrArg _ (rig.did_eq_listing rfl)

/-- **Carrying out effects** lists them, and stops the clock if that is one of them. -/
theorem run_carryOut (hlists : Lists keep big) (failure : Option ε) (effects : List Effect)
    (hkeep : ∀ e ∈ effects, e ≠ .stopClock → keep e = true) (c : Clock τ Beat) (g : γ)
    (rig : Rig σ) :
    ((Machine.carryOut failure effects).beside γ).run big pending started (c, (g, rig)) =
      Clock.concluded (failure.map .host) (c.stopIf (decide (.stopClock ∈ effects)),
        (g, rig.listing keep (effects.map (.listed c.dispatched)))) := by
  induction effects generalizing c rig with
  | nil => cases failure <;> rfl
  | cons e rest ih =>
    have hrest := fun e' he' => hkeep e' (List.mem_cons_of_mem e he')
    have hdid (e' : Effect) (he' : e' = e) (hne : e' ≠ .stopClock) :
        rig.did e' = rig.listing keep [e'] :=
      rig.did_eq_listing (hkeep e' (he' ▸ List.mem_cons_self) hne)
    cases e with
    | stopClock =>
      show ((Machine.carryOut failure rest).beside γ).run big pending started
        (c.stop, big.told (.stopped c.dispatched) (g, rig)) = _
      rw [hlists, ih hrest, ← Rig.listing_append]
      simp [Effect.listed, Clock.Notice.diagnostic]
    | output | report | diagnostic =>
      show ((Machine.carryOut failure rest).beside γ).run big pending started
        (c, (g, rig.did _)) = _
      rw [hdid _ rfl (by simp), ih hrest, ← Rig.listing_append]
      simp [Effect.listed]

/-- **A tick on the clock.** -/
theorem run_tick (hlists : Lists (fun _ => true) big) (env : Environment τ σ ε) (c : Clock τ Beat)
    (g : γ) (rig : Rig σ) :
    ((Machine.tick env).beside γ).run big pending started (c, (g, rig)) =
      Clock.concluded ((rig.cpu.tick env.output rig.host).failure.map .host)
        (c.stopIf (decide (.stopClock ∈ (rig.cpu.tick env.output rig.host).effects)),
          (g, rig.ticked env.output c.dispatched)) :=
  run_carryOut hlists _ _ (fun _ _ _ => rfl) c g _

/-- The rig after its host has made requests. -/
def Rig.served (keep : Effect → Bool) (rig : Rig σ) (dispatched : Nat)
    (requests : List (Request ε)) : Rig σ :=
  let (p, effects, _) := rig.cpu.processor.serve requests
  Rig.listing keep { rig with cpu := rig.cpu.withProcessor p } (effects.map (.listed dispatched))

/-- **Serving requests on the clock** does to the processor what serving them during a tick does. -/
theorem run_serve (hlists : Lists keep big) (requests : List (Request ε)) (c : Clock τ Beat) (g : γ)
    (rig : Rig σ) :
    ((Machine.serve requests).beside γ).run big pending started (c, (g, rig)) =
      Clock.concluded (rig.cpu.processor.serve requests).2.2.failure
        (c.stopIf (decide (.stopClock ∈ (rig.cpu.processor.serve requests).2.1)),
          (g, rig.served keep c.dispatched requests)) := by
  induction requests generalizing c rig with
  | nil => rfl
  | cons request rest ih =>
    cases request with
    | fault f => rfl
    | fail reason => rfl
    | stopClock =>
      show ((Machine.serve rest).beside γ).run big pending started
        (c.stop, big.told (.stopped c.dispatched) (g, rig)) = _
      rw [hlists, ih, Rig.served, Rig.served, Processor.serve]
      have hmore (effects : List Effect) :
          Rig.listing keep { rig with cpu := rig.cpu.withProcessor (rig.cpu.processor.serve rest).1 }
              (.diagnostic (.clockStopped c.dispatched) :: effects) =
            Rig.listing keep { rig.listing keep [.diagnostic (.clockStopped c.dispatched)] with
              cpu := rig.cpu.withProcessor (rig.cpu.processor.serve rest).1 } effects :=
        Rig.listing_append keep _ [_] effects
      simp [Effect.listed, Clock.Notice.diagnostic, hmore]
    | raise line =>
      cases hraise : rig.cpu.processor.raise line with
      | error e =>
        have hcpu : rig.cpu.raise line = .error e := by rw [Cpu.raise, hraise]; rfl
        simp only [Machine.serve, Clock.Routine.beside, Clock.Routine.run, Clock.Routine.runWith,
          hcpu, Rig.served, Processor.serve, hraise]
        rfl
      | ok p =>
        have hcpu : rig.cpu.raise line = .ok (rig.cpu.withProcessor p) := by
          rw [Cpu.raise, hraise]
          rfl
        simp only [Machine.serve, Clock.Routine.beside, Clock.Routine.run, Clock.Routine.runWith,
          hcpu, Rig.served, Processor.serve, hraise]
        exact ih c { rig with cpu := rig.cpu.withProcessor p }

/-- **A sleep.** -/
theorem run_sleep (hlists : Lists keep big) (env : Environment τ σ ε) (d : τ) (c : Clock τ Beat)
    (g : γ) (rig : Rig σ) :
    ((Machine.sleep env d).beside γ).run big pending started (c, (g, rig)) =
      Clock.concluded (rig.cpu.processor.serve (env.sleep rig.host d).2).2.2.failure
        (c.stopIf (decide (.stopClock ∈ (rig.cpu.processor.serve (env.sleep rig.host d).2).2.1)),
          (g, Rig.served keep { rig with host := (env.sleep rig.host d).1 } c.dispatched
            (env.sleep rig.host d).2)) :=
  run_serve hlists _ c g _

/-- **What a machine's host keeps together with its log,** given that a tick and a firing of the timer
    do, which are noted with the rig they find, and that sleeps and notices do. -/
theorem keeps_logged {env : Environment τ σ ε} {I : Clock.Log Beat (Rig σ) × Rig σ → Prop}
    (tick : ∀ log rig n, I (log, rig) →
      I (log ++ [(.tick, rig)], rig.ticked env.output n))
    (timer : ∀ log rig, I (log, rig) → I (log ++ [(.timer, rig)], { rig with cpu := rig.cpu.timer }))
    (sleep : ∀ log rig d n, I (log, rig) → I (log,
      Rig.served (fun _ => true) { rig with host := (env.sleep rig.host d).1 } n
        (env.sleep rig.host d).2))
    (told : ∀ log rig e, I (log, rig) → I (log, Rig.listing (fun _ => true) rig [.diagnostic e])) :
    (Machine.clockHost env).logged.Keeps I where
  fire := by
    rintro beat pending started _ _ c ⟨log, rig⟩ h
    rw [Clock.worldLeft_eq]
    cases beat with
    | tick =>
      show I (Clock.stateLeft (((Machine.tick env).beside _).run _ _ _ (_, (_, _)))).2
      rw [run_tick (lists_logged env) env, Clock.stateLeft_concluded]
      exact tick log rig c.dispatched h
    | timer => exact timer log rig h
  sleep := by
    rintro d pending started _ _ c ⟨log, rig⟩ h
    rw [Clock.worldLeft_eq]
    show I (Clock.stateLeft (((Machine.sleep env d).beside _).run _ _ _ (_, (_, _)))).2
    rw [run_sleep (lists_logged env) env, Clock.stateLeft_concluded]
    exact sleep log rig d c.dispatched h
  told := by
    rintro n ⟨log, rig⟩ h
    rw [lists_logged]
    exact told log rig n.diagnostic h

end Routines

/-! ## Machines -/

namespace Machine

variable [Add τ] [Sub τ] [Zero τ] [LE τ] [LT τ] [DecidableLE τ] [DecidableLT τ]
variable {env : Environment τ σ ε}

/-- The machine that a task leaves. -/
theorem fst_perform (env : Environment τ σ ε) (fuel : Nat) (task : Task τ σ ε) (m : Machine τ σ) :
    (m.perform env fuel task).1 =
      { m with
        clock := (Clock.stateLeft (Clock.perform (clockHost env) fuel task (m.clock, m.rig))).1
        rig := (Clock.stateLeft (Clock.perform (clockHost env) fuel task (m.clock, m.rig))).2 } := by
  rw [perform]
  cases Clock.perform (clockHost env) fuel task (m.clock, m.rig) <;> rfl

/-- **A tick by hand.** -/
theorem perform_tick (env : Environment τ σ ε) (fuel : Nat) (m : Machine τ σ) :
    m.perform env fuel (tick env) =
      ({ m with
          clock := m.clock.stopIf
            (decide (.stopClock ∈ (m.rig.cpu.tick env.output m.rig.host).effects))
          rig := m.rig.ticked env.output m.clock.dispatched },
        (m.rig.cpu.tick env.output m.rig.host).failure.map fun reason => .failed (.host reason)) := by
  -- with a log, and then without it
  have hbare : _ = Clock.perform (clockHost env) fuel (tick env) (m.clock, m.rig) :=
    Clock.projects_performLogged (clockHost env) fuel (tick env) (m.clock, ([], m.rig))
  rw [Clock.performLogged, Clock.perform, run_tick (lists_logged env)] at hbare
  rw [perform, ← hbare]
  cases (m.rig.cpu.tick env.output m.rig.host).failure <;> rfl

/-- **The firings of a run,** each with the rig that it found. -/
def firings (env : Environment τ σ ε) (fuel : Nat) (m : Machine τ σ) : Clock.Log Beat (Rig σ) :=
  Clock.firings (clockHost env) fuel (runTask m.tickInterval m.timerInterval) (m.clock, m.rig)

/-- What a run leaves, together with its firings, is what a run with a log leaves. -/
theorem stateLeft_logged (env : Environment τ σ ε) (fuel : Nat) (m : Machine τ σ) :
    Clock.stateLeft (Clock.performLogged (clockHost env) fuel
        (runTask m.tickInterval m.timerInterval) (m.clock, ([], m.rig))) =
      ((m.run env fuel).1.clock, (m.firings env fuel, (m.run env fuel).1.rig)) := by
  have hbare := (Clock.projects_performLogged (clockHost env) fuel
    (runTask m.tickInterval m.timerInterval)).stateLeft (m.clock, ([], m.rig))
  have hstate : (Clock.stateLeft (Clock.perform (clockHost env) fuel
      (runTask m.tickInterval m.timerInterval) (m.clock, m.rig))) =
        ((m.run env fuel).1.clock, (m.run env fuel).1.rig) := by
    rw [run, fst_perform]
  rw [Clock.projected, Clock.projected, hstate] at hbare
  obtain ⟨hclock, hrig⟩ := Prod.mk.inj hbare
  rw [← hclock, ← hrig, firings, Clock.firings, Clock.worldLeft_eq]

/-- What a host with a log keeps, a run keeps; the log is then that of the firings. -/
theorem keeps_run {I : Clock.Log Beat (Rig σ) × Rig σ → Prop}
    (h : (clockHost env).logged.Keeps I) (fuel : Nat) {m : Machine τ σ} (hm : I ([], m.rig)) :
    I (m.firings env fuel, (m.run env fuel).1.rig) := by
  have hroutine (pending : Clock.Work τ Beat (Clock.Log Beat (Rig σ) × Rig σ) (HostFailure ε) Nat)
      (started : Clock.Work τ Beat (Clock.Log Beat (Rig σ) × Rig σ) (HostFailure ε) Unit)
      (_ : Clock.Keeps I pending) (hstarted : Clock.Keeps I started) :
      Clock.Keeps I (((runTask m.tickInterval m.timerInterval).beside _).run
        (clockHost env).logged pending started) := by
    intro c s hs
    have hstep : ((runTask m.tickInterval m.timerInterval).beside _).run (clockHost env).logged
        pending started (c, s) = Clock.Routine.run (clockHost env).logged pending started
          (Clock.Routine.beside _ (if s.2.cpu.processor.halted then .done
            else addSources m.tickInterval m.timerInterval (.start .done))) (c, s) := rfl
    rw [hstep]
    split
    · exact hs
    · exact Clock.keeps_add (Clock.keeps_add (Clock.keeps_start hstarted Clock.keeps_done)) c s hs
  have hkept := Clock.keeps_perform h hroutine fuel m.clock ([], m.rig) hm
  have hleft := congrArg Prod.snd (stateLeft_logged env fuel m)
  rw [Clock.worldLeft_eq] at hkept
  rw [← show _ = (m.firings env fuel, (m.run env fuel).1.rig) from hleft]
  exact hkept

end Machine

end Ls8
