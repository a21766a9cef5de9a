import Ls8.Proofs.Clock.Projection

/-
  The firings of a run, one after the other.

  A log is a piece of ghost state beside the world: each command that is fired is noted in it,
  together with the world that the command finds (`Host.logged`).  No routine sees the log, so a run
  that keeps one projects to a run that does not (`projects_performLogged`).  The firings of a
  run are the log that it leaves (`firings`).
-/

namespace Ls8.Clock

variable {τ κ ω γ ε α β : Type}

/-- A routine beside something that it does not touch. -/
def Routine.beside (γ : Type) : Routine τ κ ω ε → Routine τ κ (γ × ω) ε
  | .done => .done
  | .fail reason => .fail reason
  | .read next => .read fun s => (next s.2).beside γ
  | .write w next => .read fun s => .write (s.1, w) (next.beside γ)
  | .add source next => .add source (next.beside γ)
  | .runPending next => .runPending fun n => (next n).beside γ
  | .start next => .start (next.beside γ)
  | .stop next => .stop (next.beside γ)
  | .attempt part catches next => .attempt (part.beside γ) catches fun caught => (next caught).beside γ

/-- A host beside something that it does not touch. -/
def Host.beside (γ : Type) (host : Host τ κ ω ε) : Host τ κ (γ × ω) ε where
  now s := host.now s.2
  fire k := (host.fire k).beside γ
  sleep d := (host.sleep d).beside γ
  told n s := (s.1, host.told n s.2)

/-- The commands that were fired, each with the world that it found. -/
abbrev Log (κ ω : Type) := List (κ × ω)

/-- **A host that notes every firing** before it happens. -/
def Host.logged (host : Host τ κ ω ε) : Host τ κ (Log κ ω × ω) ε where
  now s := host.now s.2
  fire k := .read fun s => .write (s.1 ++ [(k, s.2)], s.2) ((host.fire k).beside _)
  sleep d := (host.sleep d).beside _
  told n s := (s.1, host.told n s.2)

/-- A host beside another one: it tells the same time and passes on the notices. -/
structure Host.Beside (big : Host τ κ (γ × ω) ε) (host : Host τ κ ω ε) : Prop where
  now : ∀ s, big.now s = host.now s.2
  told : ∀ n s, (big.told n s).2 = host.told n s.2

theorem logged_beside (host : Host τ κ ω ε) : host.logged.Beside host :=
  ⟨fun _ => rfl, fun _ _ => rfl⟩

variable {host : Host τ κ ω ε} {big : Host τ κ (γ × ω) ε}
variable {pending : Work τ κ ω ε Nat} {pending' : Work τ κ (γ × ω) ε Nat}
variable {started : Work τ κ ω ε Unit} {started' : Work τ κ (γ × ω) ε Unit}

variable [Add τ] [Zero τ] [LE τ] [LT τ] [DecidableLE τ] [DecidableLT τ]

/-- **A routine beside something** projects to the routine itself. -/
theorem projects_beside (h : big.Beside host) (hpending : Projects Prod.snd pending' pending)
    (hstarted : Projects Prod.snd started' started) (r : Routine τ κ ω ε) :
    Projects Prod.snd ((r.beside γ).run big pending' started') (r.run host pending started) := by
  induction r with
  | done => exact fun s => rfl
  | fail reason => exact fun s => rfl
  | read next ih => exact fun s => ih s.2.2 s
  | write w next ih => exact fun s => ih (s.1, (s.2.1, w))
  | add source next ih => exact projects_add h.now ih
  | runPending next ih => exact hpending.bind ih
  | start next ih => exact hstarted.bind fun _ => ih
  | stop next ih =>
    rintro ⟨c, g, w⟩
    have hnext := ih (c.stop, big.told (.stopped c.dispatched) (g, w))
    rw [projected, h.told] at hnext
    exact hnext
  | attempt part catches next ihpart ihnext => exact ihpart.attempted ihnext

/-- A host that keeps a log projects to the host itself: a firing is noted first, then it is run
    beside the log. -/
theorem logged_projectsTo (host : Host τ κ ω ε) : host.logged.ProjectsTo Prod.snd host where
  now := (logged_beside host).now
  told := (logged_beside host).told
  fire k _ _ _ _ hpending hstarted s :=
    projects_beside (logged_beside host) hpending hstarted (host.fire k)
      (s.1, (s.2.1 ++ [(k, s.2.2)], s.2.2))
  sleep d _ _ _ _ hpending hstarted :=
    projects_beside (logged_beside host) hpending hstarted (host.sleep d)

/-! ## Runs -/

variable [Sub τ]

/-- A routine performed by a host that keeps a log. -/
def performLogged (host : Host τ κ ω ε) (fuel : Nat) (routine : Routine τ κ ω ε) :
    Work τ κ (Log κ ω × ω) ε Unit :=
  perform host.logged fuel (routine.beside (Log κ ω))

/-- **Keeping a log changes nothing.** -/
theorem projects_performLogged (host : Host τ κ ω ε) (fuel : Nat) (routine : Routine τ κ ω ε) :
    Projects Prod.snd (performLogged host fuel routine) (perform host fuel routine) :=
  projects_perform (logged_projectsTo host) fuel fun _ _ _ _ hpending hstarted =>
    projects_beside (logged_beside host) hpending hstarted routine

/-- **The firings of a routine,** in order, each with the world that it found. -/
def firings (host : Host τ κ ω ε) (fuel : Nat) (routine : Routine τ κ ω ε)
    (s : Clock τ κ × ω) : Log κ ω :=
  (worldLeft (performLogged host fuel routine (s.1, ([], s.2)))).1

/-- The firings of one pass. -/
theorem firings_runPending (host : Host τ κ ω ε) (fuel : Nat) (c : Clock τ κ) (w : ω) :
    firings host fuel (.runPending fun _ => .done) (c, w) =
      (worldLeft (runPending host.logged fuel (c, ([], w)))).1 := by
  rw [firings, performLogged]
  show (worldLeft (EStateM.bind (runPending host.logged fuel) (fun _ => pure ()) _)).1 = _
  rw [EStateM.bind]
  cases runPending host.logged fuel (c, ([], w)) <;> rfl

/-! ## Logs of runs that are the same up to a projection -/

section Projections
variable {ω' : Type} {f : ω → ω'} {host' : Host τ κ ω' ε}

/-- A log and the world beside it, seen through a projection of the world. -/
def projectedLog (f : ω → ω') (s : Log κ ω × ω) : Log κ ω' × ω' := (s.1.map (Prod.map id f), f s.2)

/-- If routines that keep a log project to each other, so do the routines themselves. -/
theorem projects_perform_of_logged {fuel : Nat} {routine : Routine τ κ ω ε}
    {routine' : Routine τ κ ω' ε} (h : Projects (projectedLog f) (performLogged host fuel routine)
      (performLogged host' fuel routine')) :
    Projects f (perform host fuel routine) (perform host' fuel routine') := by
  intro s
  have hbare : projectedResult Prod.snd (performLogged host fuel routine (s.1, ([], s.2))) =
      perform host fuel routine s := projects_performLogged host fuel routine (s.1, ([], s.2))
  have hbare' : projectedResult Prod.snd (performLogged host' fuel routine' (s.1, ([], f s.2))) =
      perform host' fuel routine' (projected f s) :=
    projects_performLogged host' fuel routine' (s.1, ([], f s.2))
  have hlogged : projectedResult (projectedLog f) (performLogged host fuel routine (s.1, ([], s.2))) =
      performLogged host' fuel routine' (s.1, ([], f s.2)) := h (s.1, ([], s.2))
  rw [← hbare, ← hbare', ← hlogged]
  cases performLogged host fuel routine (s.1, ([], s.2)) <;> rfl

/-- If routines that keep a log project to each other, so do their firings. -/
theorem firings_of_logged {fuel : Nat} {routine : Routine τ κ ω ε} {routine' : Routine τ κ ω' ε}
    (h : Projects (projectedLog f) (performLogged host fuel routine)
      (performLogged host' fuel routine')) (c : Clock τ κ) (w : ω) :
    (firings host fuel routine (c, w)).map (Prod.map id f) =
      firings host' fuel routine' (c, f w) := by
  have hleft := congrArg (·.2.1) (h.stateLeft (c, ([], w)))
  rw [firings, firings, worldLeft_eq, worldLeft_eq]
  exact hleft

end Projections

end Ls8.Clock
