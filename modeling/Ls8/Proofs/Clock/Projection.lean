import Ls8.Proofs.Clock.World

/-
  Runs that are the same up to a projection of the world.

  A world may hold more than what decides a run: ghost state beside it, or a record that nobody reads.
  Let `f` forget that part.  If what a host does in the larger world is, once `f` has been applied,
  what another host does in the smaller one (`Host.ProjectsTo`), then the same holds of whole runs:
  they make the same steps, leave the same clock, end in the same way, and the world that one leaves
  is the projection of what the other leaves (`projects_pass_loop`, `projects_perform`).

  Where each of two worlds holds something that the other one does not, they are compared through a
  projection of each (`Agree`), and what is kept in books may be part of it.  So the induction over a
  run is made once, for two hosts that agree (`agree_passWith_loopWith`).
-/

namespace Ls8.Clock

variable {τ κ ω ω' ε α β : Type} {f : ω → ω'}

/-- A state seen through a projection of the world. -/
def projected (f : ω → ω') (s : Clock τ κ × ω) : Clock τ κ × ω' := (s.1, f s.2)

/-- A result seen through a projection of the world. -/
def projectedResult (f : ω → ω') : EStateM.Result (Interruption ε) (Clock τ κ × ω) α →
    EStateM.Result (Interruption ε) (Clock τ κ × ω') α
  | .ok a s => .ok a (projected f s)
  | .error i s => .error i (projected f s)

/-- **Work projects to other work** if that does the same in the projected world. -/
def Projects (f : ω → ω') (x : Work τ κ ω ε α) (y : Work τ κ ω' ε α) : Prop :=
  ∀ s, projectedResult f (x s) = y (projected f s)

/-- What work leaves is projected to what the other work leaves. -/
theorem Projects.stateLeft {x : Work τ κ ω ε α} {y : Work τ κ ω' ε α} (h : Projects f x y)
    (s : Clock τ κ × ω) :
    projected f (Clock.stateLeft (x s)) = Clock.stateLeft (y (projected f s)) := by
  rw [← h s]
  cases x s <;> rfl

theorem projectedResult_concluded (f : ω → ω') (failure : Option ε) (s : Clock τ κ × ω) :
    projectedResult f (concluded failure s) = concluded failure (projected f s) := by
  cases failure <;> rfl

variable {host : Host τ κ ω ε} {host' : Host τ κ ω' ε}

/-- **A host projects to another one:** they tell the same time, take the same notices, and their
    firings and sleeps do the same, given that whatever they have the clock do does. -/
structure Host.ProjectsTo (f : ω → ω') (host : Host τ κ ω ε) (host' : Host τ κ ω' ε)
    [Add τ] [Zero τ] [LE τ] [LT τ] [DecidableLE τ] [DecidableLT τ] : Prop where
  now : ∀ w, host.now w = host'.now (f w)
  told : ∀ n w, f (host.told n w) = host'.told n (f w)
  fire : ∀ k (pending : Work τ κ ω ε Nat) (pending' : Work τ κ ω' ε Nat)
    (started : Work τ κ ω ε Unit) (started' : Work τ κ ω' ε Unit), Projects f pending pending' →
    Projects f started started' →
    Projects f ((host.fire k).run host pending started) ((host'.fire k).run host' pending' started')
  sleep : ∀ d (pending : Work τ κ ω ε Nat) (pending' : Work τ κ ω' ε Nat)
    (started : Work τ κ ω ε Unit) (started' : Work τ κ ω' ε Unit), Projects f pending pending' →
    Projects f started started' →
    Projects f ((host.sleep d).run host pending started)
      ((host'.sleep d).run host' pending' started')

/-! ## Worlds that look the same -/

section Agreement
variable {ω'' ω₀ : Type} {f : ω → ω''} {g : ω' → ω''}

/-- Two results look the same if both are successes or both are not, with the same clock. -/
theorem eq_or_eq_of_projectedResult_eq {x : EStateM.Result (Interruption ε) (Clock τ κ × ω) α}
    {y : EStateM.Result (Interruption ε) (Clock τ κ × ω') α}
    (h : projectedResult f x = projectedResult g y) :
    (∃ a c s t, f s = g t ∧ x = .ok a (c, s) ∧ y = .ok a (c, t)) ∨
      ∃ i c s t, f s = g t ∧ x = .error i (c, s) ∧ y = .error i (c, t) := by
  cases x with
  | ok a s =>
    cases y with
    | ok b t =>
      obtain ⟨rfl, hstate⟩ := EStateM.Result.ok.inj h
      obtain ⟨hclock, hworld⟩ := Prod.mk.inj hstate
      exact .inl ⟨a, s.1, s.2, t.2, hworld, rfl, by rw [hclock]⟩
    | error j t => cases h
  | error i s =>
    cases y with
    | ok b t => cases h
    | error j t =>
      obtain ⟨rfl, hstate⟩ := EStateM.Result.error.inj h
      obtain ⟨hclock, hworld⟩ := Prod.mk.inj hstate
      exact .inr ⟨i, s.1, s.2, t.2, hworld, rfl, by rw [hclock]⟩

/-- **Works agree,** seen through two projections, if they do the same whenever they begin in worlds
    that look the same. -/
def Agree (f : ω → ω'') (g : ω' → ω'') (x : Work τ κ ω ε α) (y : Work τ κ ω' ε α) : Prop :=
  ∀ c s t, f s = g t → projectedResult f (x (c, s)) = projectedResult g (y (c, t))

theorem agree_pure (a : α) :
    Agree f g (pure a : Work τ κ ω ε α) (pure a) :=
  fun c _ _ hst => congrArg (fun w => EStateM.Result.ok a (c, w)) hst

theorem agree_throw (i : Interruption ε) :
    Agree f g (throw i : Work τ κ ω ε α) (throw i) :=
  fun c _ _ hst => congrArg (fun w => EStateM.Result.error i (c, w)) hst

theorem Agree.bind {x : Work τ κ ω ε α} {y : Work τ κ ω' ε α} {p : α → Work τ κ ω ε β}
    {q : α → Work τ κ ω' ε β} (hx : Agree f g x y) (hp : ∀ a, Agree f g (p a) (q a)) :
    Agree f g (x >>= p) (y >>= q) := by
  intro c s t hst
  show projectedResult f (EStateM.bind x p (c, s)) = projectedResult g (EStateM.bind y q (c, t))
  rw [EStateM.bind, EStateM.bind]
  rcases eq_or_eq_of_projectedResult_eq (hx c s t hst) with
    ⟨a, d, s', t', hworld, hl, hr⟩ | ⟨i, d, s', t', hworld, hl, hr⟩
  · rw [hl, hr]
    exact hp a d s' t' hworld
  · rw [hl, hr]
    exact congrArg (fun w => EStateM.Result.error i (d, w)) hworld

/-- Work a part of which may fail and be caught. -/
theorem Agree.attempted {catches : Interruption ε → Bool} {x : Work τ κ ω ε Unit}
    {y : Work τ κ ω' ε Unit} {p : Option (Interruption ε) → Work τ κ ω ε Unit}
    {q : Option (Interruption ε) → Work τ κ ω' ε Unit} (hx : Agree f g x y)
    (hp : ∀ caught, Agree f g (p caught) (q caught)) :
    Agree f g (attempted catches x p) (attempted catches y q) := by
  intro c s t hst
  rw [Clock.attempted, Clock.attempted]
  rcases eq_or_eq_of_projectedResult_eq (hx c s t hst) with
    ⟨_, d, s', t', hworld, hl, hr⟩ | ⟨i, d, s', t', hworld, hl, hr⟩
  · rw [hl, hr]
    exact hp none d s' t' hworld
  · rw [hl, hr]
    simp only
    split
    · exact hp (some i) d s' t' hworld
    · exact congrArg (fun w => EStateM.Result.error i (d, w)) hworld

/-- A clock is started in worlds that look the same. -/
theorem agree_startWith (htold : ∀ n s t, f s = g t → f (host.told n s) = g (host'.told n t))
    {loop : Work τ κ ω ε Unit} {loop' : Work τ κ ω' ε Unit} (hloop : Agree f g loop loop') :
    Agree f g (startWith host loop) (startWith host' loop') := by
  intro c s t hst
  have hleft := hloop { c with running := true } _ _ (htold (.started c.events.size) s t hst)
  rw [startWith, startWith]
  split
  · exact congrArg (fun w => EStateM.Result.ok () (c, w)) hst
  · rcases eq_or_eq_of_projectedResult_eq hleft with
      ⟨_, d, s', t', hworld, hl, hr⟩ | ⟨i, d, s', t', hworld, hl, hr⟩
    · rw [hl, hr]
      exact congrArg (fun w => EStateM.Result.ok () ({ d with running := false }, w)) hworld
    · rw [hl, hr]
      exact congrArg (fun w => EStateM.Result.error i ({ d with running := false }, w)) hworld

/-- Work that agrees with other work projects to what that projects to, as far as it is seen. -/
theorem Agree.projects {h : ω'' → ω₀} {x : Work τ κ ω ε α} {y : Work τ κ ω' ε α}
    {z : Work τ κ ω₀ ε α} (hxy : Agree f g x y) (hlike : ∀ s, ∃ t, f s = g t)
    (hyz : Projects (fun t => h (g t)) y z) : Projects (fun s => h (f s)) x z := by
  rintro ⟨c, s⟩
  obtain ⟨t, hst⟩ := hlike s
  have hthird := hyz (c, t)
  have hworld : projected (fun s => h (f s)) (c, s) = projected (fun t => h (g t)) (c, t) := by
    rw [projected, projected, hst]
  rw [hworld, ← hthird]
  rcases eq_or_eq_of_projectedResult_eq (hxy c s t hst) with
    ⟨a, d, s', t', hsame, hl, hr⟩ | ⟨i, d, s', t', hsame, hl, hr⟩
  · rw [hl, hr]
    exact congrArg (fun w => EStateM.Result.ok a (d, h w)) hsame
  · rw [hl, hr]
    exact congrArg (fun w => EStateM.Result.error i (d, h w)) hsame

/-- To project to other work is to agree with it, if that is seen as it is. -/
theorem projects_iff_agree {f : ω → ω'} {x : Work τ κ ω ε α} {y : Work τ κ ω' ε α} :
    Projects f x y ↔ Agree f id x y := by
  have hid (result : EStateM.Result (Interruption ε) (Clock τ κ × ω') α) :
      projectedResult id result = result := by
    cases result <;> rfl
  constructor
  · rintro h c s _ rfl
    rw [hid]
    exact h (c, s)
  · intro h s
    have hsame := h s.1 s.2 (f s.2) rfl
    rwa [hid] at hsame

/-! ## Worlds seen through one projection -/

theorem Projects.bind {f : ω → ω'} {x : Work τ κ ω ε α} {y : Work τ κ ω' ε α}
    {p : α → Work τ κ ω ε β} {q : α → Work τ κ ω' ε β} (hx : Projects f x y)
    (hp : ∀ a, Projects f (p a) (q a)) : Projects f (x >>= p) (y >>= q) :=
  projects_iff_agree.mpr
    ((projects_iff_agree.mp hx).bind fun a => projects_iff_agree.mp (hp a))

theorem Projects.attempted {f : ω → ω'} {catches : Interruption ε → Bool} {x : Work τ κ ω ε Unit}
    {y : Work τ κ ω' ε Unit} {p : Option (Interruption ε) → Work τ κ ω ε Unit}
    {q : Option (Interruption ε) → Work τ κ ω' ε Unit} (hx : Projects f x y)
    (hp : ∀ caught, Projects f (p caught) (q caught)) :
    Projects f (attempted catches x p) (attempted catches y q) :=
  projects_iff_agree.mpr
    ((projects_iff_agree.mp hx).attempted fun caught => projects_iff_agree.mp (hp caught))

theorem projects_startWith {f : ω → ω'} (htold : ∀ n w, f (host.told n w) = host'.told n (f w))
    {loop : Work τ κ ω ε Unit} {loop' : Work τ κ ω' ε Unit} (hloop : Projects f loop loop') :
    Projects f (startWith host loop) (startWith host' loop') := by
  refine projects_iff_agree.mpr (agree_startWith ?_ (projects_iff_agree.mp hloop))
  rintro n s _ rfl
  exact htold n s

end Agreement

variable [Add τ] [Zero τ] [LE τ] [LT τ] [DecidableLE τ] [DecidableLT τ]

/-- A source is added, or refused, at the same time. -/
theorem projects_add (hnow : ∀ w, host.now w = host'.now (f w)) {source : Source τ κ}
    {next : Routine τ κ ω ε} {next' : Routine τ κ ω' ε} {pending : Work τ κ ω ε Nat}
    {pending' : Work τ κ ω' ε Nat} {started : Work τ κ ω ε Unit} {started' : Work τ κ ω' ε Unit}
    (hnext : Projects f (next.run host pending started) (next'.run host' pending' started')) :
    Projects f ((Routine.add source next).run host pending started)
      ((Routine.add source next').run host' pending' started') := by
  rintro ⟨c, w⟩
  show projectedResult f ((Routine.add source next).run host pending started (c, w)) =
    (Routine.add source next').run host' pending' started' (c, f w)
  cases hadd : c.add (host'.now (f w)) source with
  | ok d =>
    have hadd' : c.add (host.now w) source = .ok d := by rw [hnow, hadd]
    rw [run_add_of_ok hadd, run_add_of_ok hadd']
    exact hnext (d, w)
  | error e =>
    have hadd' : c.add (host.now w) source = .error e := by rw [hnow, hadd]
    rw [run_add_of_error hadd, run_add_of_error hadd']
    rfl

/-! ## Runs -/

variable [Sub τ]

section Agreement
variable {ω'' : Type} {f : ω → ω''} {g : ω' → ω''}
variable {book : Entry τ κ → ω → ω} {book' : Entry τ κ → ω' → ω'}

/-- **Two hosts agree** in worlds that look the same: they tell the same time, take the same notices,
    and their firings and sleeps do the same, given that whatever they have the clock do does.  A
    firing begins with the entry in the books. -/
structure Host.AgreesWith (f : ω → ω'') (g : ω' → ω'') (book : Entry τ κ → ω → ω)
    (book' : Entry τ κ → ω' → ω') (host : Host τ κ ω ε) (host' : Host τ κ ω' ε) : Prop where
  now : ∀ s t, f s = g t → host.now s = host'.now t
  told : ∀ n s t, f s = g t → f (host.told n s) = g (host'.told n t)
  fire : ∀ e now again (pending : Work τ κ ω ε Nat) (pending' : Work τ κ ω' ε Nat)
    (started : Work τ κ ω ε Unit) (started' : Work τ κ ω' ε Unit), Agree f g pending pending' →
    Agree f g started started' →
    Agree f g
      (fun s => (host.fire e.source.command).runWith book host pending started
        (s.1, book (.taken e now again) s.2))
      (fun s => (host'.fire e.source.command).runWith book' host' pending' started'
        (s.1, book' (.taken e now again) s.2))
  sleep : ∀ d (pending : Work τ κ ω ε Nat) (pending' : Work τ κ ω' ε Nat)
    (started : Work τ κ ω ε Unit) (started' : Work τ κ ω' ε Unit), Agree f g pending pending' →
    Agree f g started started' →
    Agree f g ((host.sleep d).runWith book host pending started)
      ((host'.sleep d).runWith book' host' pending' started')

/-- Running what is pending, if passes agree. -/
theorem Host.AgreesWith.runPending (h : host.AgreesWith f g book book' host') {fuel : Nat}
    (hpass : ∀ now fired, Agree f g (passWith book host fuel now fired)
      (passWith book' host' fuel now fired)) :
    Agree f g (runPendingWith book host fuel) (runPendingWith book' host' fuel) := by
  intro c s t hst
  rw [runPendingWith, runPendingWith, h.now s t hst]
  exact hpass (host'.now t) 0 c s t hst

/-- **Passes and loops** of hosts that agree do the same. -/
theorem agree_passWith_loopWith (h : host.AgreesWith f g book book' host') (fuel : Nat) :
    (∀ now fired, Agree f g (passWith book host fuel now fired)
      (passWith book' host' fuel now fired)) ∧
    Agree f g (loopWith book host fuel) (loopWith book' host' fuel) := by
  induction fuel with
  | zero => exact ⟨fun now fired => agree_throw .exhausted, agree_throw .exhausted⟩
  | succ fuel ih =>
    obtain ⟨hpass, hloop⟩ := ih
    have hpending := h.runPending hpass
    have hstarted : Agree f g (startingWith book host fuel) (startingWith book' host' fuel) :=
      agree_startWith h.told hloop
    have hnext (now fired) : Agree f g (passOnWith book host fuel now fired)
        (passOnWith book' host' fuel now fired) :=
      fun c s t hst => hpass now (fired + 1) c.countFiring s t hst
    have hturn : Agree f g (turnOnWith book host fuel) (turnOnWith book' host' fuel) := by
      intro c s t hst
      rw [turnOnWith, turnOnWith]
      simp only [h.now s t hst]
      split
      · exact agree_pure () c s t hst
      · split
        · exact agree_pure () c s t hst
        · split
          · exact ((h.sleep _ _ _ _ _ hpending hstarted).bind fun _ => hloop) c s t hst
          · exact hloop c s t hst
    constructor
    · intro now fired c s t hst
      rw [passWith_succ, passWith_succ]
      split
      · exact agree_pure fired c s t hst
      · rename_i e rest _
        split
        · have hfire := h.fire e now (c.nextEvent e now) _ _ _ _ hpending hstarted
          exact (hfire.bind fun _ => hnext now fired) (c.reschedule e rest now) s t hst
        · exact agree_pure fired c s t hst
    · intro c s t hst
      rw [loopWith_succ, loopWith_succ, h.now s t hst]
      split
      · exact ((hpass (host'.now t) 0).bind fun _ => hturn) c s t hst
      · exact agree_pure () c s t hst

end Agreement

omit [Sub τ] in
/-- A host agrees with the host to which it projects. -/
theorem Host.ProjectsTo.agrees (h : host.ProjectsTo f host') :
    host.AgreesWith f id unbooked unbooked host' where
  now := by
    rintro s _ rfl
    exact h.now s
  told := by
    rintro n s _ rfl
    exact h.told n s
  fire e _ _ _ _ _ _ hpending hstarted := projects_iff_agree.mp
    (h.fire e.source.command _ _ _ _ (projects_iff_agree.mpr hpending)
      (projects_iff_agree.mpr hstarted))
  sleep d _ _ _ _ hpending hstarted := projects_iff_agree.mp
    (h.sleep d _ _ _ _ (projects_iff_agree.mpr hpending) (projects_iff_agree.mpr hstarted))

/-- **Passes and loops** of a host project to those of the host to which it projects. -/
theorem projects_pass_loop (h : host.ProjectsTo f host') (fuel : Nat) :
    (∀ now fired, Projects f (pass host fuel now fired) (pass host' fuel now fired)) ∧
    Projects f (loop host fuel) (loop host' fuel) := by
  obtain ⟨hpass, hloop⟩ := agree_passWith_loopWith h.agrees fuel
  exact ⟨fun now fired => projects_iff_agree.mpr (hpass now fired), projects_iff_agree.mpr hloop⟩

/-- **A routine that projects to another one** when it is run does so when it is performed. -/
theorem projects_perform (h : host.ProjectsTo f host') (fuel : Nat) {routine : Routine τ κ ω ε}
    {routine' : Routine τ κ ω' ε}
    (hroutine : ∀ (pending : Work τ κ ω ε Nat) (pending' : Work τ κ ω' ε Nat)
      (started : Work τ κ ω ε Unit) (started' : Work τ κ ω' ε Unit), Projects f pending pending' →
      Projects f started started' →
      Projects f (routine.run host pending started) (routine'.run host' pending' started')) :
    Projects f (perform host fuel routine) (perform host' fuel routine') := by
  obtain ⟨hpass, hloop⟩ := agree_passWith_loopWith h.agrees fuel
  exact hroutine _ _ _ _ (projects_iff_agree.mpr (h.agrees.runPending hpass))
    (projects_iff_agree.mpr (agree_startWith h.agrees.told hloop))

end Ls8.Clock
