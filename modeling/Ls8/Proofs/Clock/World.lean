import Ls8.Clock.Routine

/-
  What running a clock keeps true of itself and of the world around it.

  A pass takes events from the heap and schedules them again; everything else that happens to a
  clock and to its world comes from the host: the routines of firings and sleeps, and the notices.
  So a property that these keep is kept by every pass and every loop, however they end and to
  whatever depth routines use the clock again (`sustains_pass_loop`; for a property of the world
  alone `keeps_pass_loop` and `keeps_perform`).

  The property need not hold between two writes of one routine; what counts is how a routine leaves
  the clock and the world, given that whatever it has the clock do keeps the property.

  All of this is the same whether books are kept or not, so it is proved for a clock with books
  (`sustains_passWith_loopWith`).
-/

namespace Ls8.Clock

variable {τ κ ω ε α β : Type}

/-- The world that work leaves, however it ended. -/
def worldLeft : EStateM.Result (Interruption ε) (Clock τ κ × ω) α → ω
  | .ok _ s => s.2
  | .error _ s => s.2

/-- The clock and the world that work leaves, however it ended. -/
def stateLeft : EStateM.Result (Interruption ε) (Clock τ κ × ω) α → Clock τ κ × ω
  | .ok _ s => s
  | .error _ s => s

/-- How work ends that may fail for a reason of its own. -/
def concluded (failure : Option ε) (s : Clock τ κ × ω) :
    EStateM.Result (Interruption ε) (Clock τ κ × ω) Unit :=
  match failure with
  | none => .ok () s
  | some reason => .error (.failed reason) s

@[simp] theorem stateLeft_concluded (failure : Option ε) (s : Clock τ κ × ω) :
    stateLeft (concluded failure s) = s := by
  cases failure <;> rfl

/-- **Work sustains a property of the clock and the world,** however it ends. -/
def Sustains (I : Clock τ κ × ω → Prop) (work : Work τ κ ω ε α) : Prop :=
  ∀ s, I s → I (stateLeft (work s))

/-- What holds of the state that work leaves, if it has succeeded. -/
theorem of_stateLeft {I : Clock τ κ × ω → Prop} {work : Work τ κ ω ε α} {s t : Clock τ κ × ω}
    {a : α} (heq : work s = .ok a t) (h : I (stateLeft (work s))) : I t := by
  rwa [heq] at h

/-- What is sustained holds after a success. -/
theorem Sustains.of_ok {I : Clock τ κ × ω → Prop} {work : Work τ κ ω ε α} {s t : Clock τ κ × ω}
    {a : α} (h : Sustains I work) (heq : work s = .ok a t) (hs : I s) : I t :=
  of_stateLeft heq (h s hs)

/-- It holds after a failure. -/
theorem Sustains.of_error {I : Clock τ κ × ω → Prop} {work : Work τ κ ω ε α} {s t : Clock τ κ × ω}
    {i : Interruption ε} (h : Sustains I work) (heq : work s = .error i t) (hs : I s) : I t := by
  have hleft := h s hs
  rwa [heq] at hleft

/-- What holds after the first part, the second part sustains. -/
theorem stateLeft_bind {I : Clock τ κ × ω → Prop} {x : Work τ κ ω ε α} {f : α → Work τ κ ω ε β}
    {s : Clock τ κ × ω} (hfirst : I (stateLeft (x s))) (hf : ∀ a, Sustains I (f a)) :
    I (stateLeft ((x >>= f) s)) := by
  show I (stateLeft (EStateM.bind x f s))
  rw [EStateM.bind]
  cases h : x s with
  | error i s' =>
    rw [h] at hfirst
    exact hfirst
  | ok a s' =>
    rw [h] at hfirst
    exact hf a s' hfirst

/-- Work a part of which may fail and be caught. -/
theorem Sustains.attempted {I : Clock τ κ × ω → Prop} {catches : Interruption ε → Bool}
    {part : Work τ κ ω ε Unit} {next : Option (Interruption ε) → Work τ κ ω ε Unit}
    (hpart : Sustains I part) (hnext : ∀ caught, Sustains I (next caught)) :
    Sustains I (attempted catches part next) := by
  intro s hs
  rw [Clock.attempted]
  cases h : part s with
  | ok _ s' => exact hnext none s' (hpart.of_ok h hs)
  | error i s' =>
    have hleft : I s' := hpart.of_error h hs
    simp only
    split
    · exact hnext (some i) s' hleft
    · exact hleft

theorem Sustains.bind {I : Clock τ κ × ω → Prop} {x : Work τ κ ω ε α} {f : α → Work τ κ ω ε β}
    (hx : Sustains I x) (hf : ∀ a, Sustains I (f a)) : Sustains I (x >>= f) :=
  fun s hs => stateLeft_bind (hx s hs) hf

/-- **Work keeps a property of the world,** however it ends. -/
def Keeps (I : ω → Prop) (work : Work τ κ ω ε α) : Prop := ∀ c w, I w → I (worldLeft (work (c, w)))

variable {I : ω → Prop}

theorem worldLeft_eq (x : EStateM.Result (Interruption ε) (Clock τ κ × ω) α) :
    worldLeft x = (stateLeft x).2 := by
  cases x <;> rfl

/-- Keeping a property of the world is sustaining it as one of the clock and the world. -/
theorem keeps_iff_sustains {work : Work τ κ ω ε α} :
    Keeps I work ↔ Sustains (fun s => I s.2) work := by
  constructor
  · intro h s hs
    show I (stateLeft (work s)).2
    rw [← worldLeft_eq]
    exact h s.1 s.2 hs
  · intro h c w hw
    rw [worldLeft_eq]
    exact h (c, w) hw

theorem Keeps.bind {x : Work τ κ ω ε α} {f : α → Work τ κ ω ε β} (hx : Keeps I x)
    (hf : ∀ a, Keeps I (f a)) : Keeps I (x >>= f) :=
  keeps_iff_sustains.mpr
    ((keeps_iff_sustains.mp hx).bind fun a => keeps_iff_sustains.mp (hf a))

/-- Starting a clock that is not running leaves it not running, however the loop ended. -/
theorem running_startWith {host : Host τ κ ω ε} (work : Work τ κ ω ε Unit) {s : Clock τ κ × ω}
    (h : s.1.running = false) : (stateLeft (startWith host work s)).1.running = false := by
  obtain ⟨c, w⟩ := s
  rw [startWith]
  split
  · exact h
  · split <;> rfl

/-- What a loop sustains, a start sustains, if marking the clock as running or not does. -/
theorem Sustains.startWith {I : Clock τ κ × ω → Prop} {host : Host τ κ ω ε}
    {work : Work τ κ ω ε Unit} (hwork : Sustains I work)
    (hbegin : ∀ c w, I (c, w) →
      I ({ c with running := true }, host.told (.started c.events.size) w))
    (hend : ∀ c w, I (c, w) → I ({ c with running := false }, w)) :
    Sustains I (startWith host work) := by
  rintro ⟨c, w⟩ hs
  have hbegun := hbegin c w hs
  rw [Clock.startWith]
  split
  · exact hs
  · split
    · rename_i d v heq
      exact hend d v (hwork.of_ok heq hbegun)
    · rename_i i d v heq
      exact hend d v (hwork.of_error heq hbegun)

variable [Add τ] [Zero τ] [LE τ] [LT τ] [DecidableLE τ] [DecidableLT τ]
variable {host : Host τ κ ω ε} {book : Entry τ κ → ω → ω}

/-- **A host keeps a property of the world:** its notices do, and its routines do if whatever they
    have the clock do does. -/
structure Host.Keeps (host : Host τ κ ω ε) (I : ω → Prop) : Prop where
  fire : ∀ k (pending : Work τ κ ω ε Nat) (started : Work τ κ ω ε Unit), Clock.Keeps I pending →
    Clock.Keeps I started → Clock.Keeps I ((host.fire k).run host pending started)
  sleep : ∀ d (pending : Work τ κ ω ε Nat) (started : Work τ κ ω ε Unit), Clock.Keeps I pending →
    Clock.Keeps I started → Clock.Keeps I ((host.sleep d).run host pending started)
  told : ∀ n w, I w → I (host.told n w)

section Routines
variable {pending : Work τ κ ω ε Nat} {started : Work τ κ ω ε Unit}

theorem keeps_done : Keeps I (Routine.done.run host pending started) := fun _ _ hw => hw

theorem runWith_add_of_ok {source : Source τ κ} {next : Routine τ κ ω ε} {c d : Clock τ κ} {w : ω}
    (h : c.add (host.now w) source = .ok d) :
    (Routine.add source next).runWith book host pending started (c, w) =
      next.runWith book host pending started
        (d, book (.added (c.firstEvent source (host.now w)) (host.now w)) w) := by
  simp only [Routine.runWith, h]

theorem runWith_add_of_error {source : Source τ κ} {next : Routine τ κ ω ε} {c : Clock τ κ} {w : ω}
    {e : IntervalError} (h : c.add (host.now w) source = .error e) :
    (Routine.add source next).runWith book host pending started (c, w) =
      .error (.refused e) (c, w) := by
  simp only [Routine.runWith, h]

theorem run_add_of_ok {source : Source τ κ} {next : Routine τ κ ω ε} {c d : Clock τ κ} {w : ω}
    (h : c.add (host.now w) source = .ok d) :
    (Routine.add source next).run host pending started (c, w) =
      next.run host pending started (d, w) :=
  runWith_add_of_ok h

theorem run_add_of_error {source : Source τ κ} {next : Routine τ κ ω ε} {c : Clock τ κ} {w : ω}
    {e : IntervalError} (h : c.add (host.now w) source = .error e) :
    (Routine.add source next).run host pending started (c, w) = .error (.refused e) (c, w) :=
  runWith_add_of_error h

/-- Adding a source leaves the world. -/
theorem keeps_add {source : Source τ κ} {next : Routine τ κ ω ε}
    (hnext : Keeps I (next.run host pending started)) :
    Keeps I ((Routine.add source next).run host pending started) := by
  intro c w hw
  cases hadd : c.add (host.now w) source with
  | ok d =>
    rw [run_add_of_ok hadd]
    exact hnext d w hw
  | error e =>
    rw [run_add_of_error hadd]
    exact hw

theorem keeps_start {next : Routine τ κ ω ε} (hstarted : Keeps I started)
    (hnext : Keeps I (next.run host pending started)) :
    Keeps I ((Routine.start next).run host pending started) :=
  hstarted.bind fun _ => hnext

end Routines

theorem keeps_startWith (h : host.Keeps I) {work : Work τ κ ω ε Unit} (hwork : Keeps I work) :
    Keeps I (startWith host work) :=
  keeps_iff_sustains.mpr ((keeps_iff_sustains.mp hwork).startWith
    (fun c w hw => h.told (.started c.events.size) w hw) fun _ _ hw => hw)

/-- **A clock in a host sustains a property:** the host's routines do if whatever they have the
    clock do does, and so do the clock's own steps, which are to take an event and schedule it
    again, to count a firing, and to mark itself as running around a loop. -/
structure Host.SustainsWith (book : Entry τ κ → ω → ω) (host : Host τ κ ω ε)
    (I : Clock τ κ × ω → Prop) : Prop where
  reschedule : ∀ c w e rest now, c.events.pop? Event.before = some (e, rest) → e.due ≤ now →
    I (c, w) → I (c.reschedule e rest now, book (.taken e now (c.nextEvent e now)) w)
  count : ∀ c w, I (c, w) → I (c.countFiring, w)
  startWith : ∀ work, Clock.Sustains I work → Clock.Sustains I (Clock.startWith host work)
  fire : ∀ k (pending : Work τ κ ω ε Nat) (started : Work τ κ ω ε Unit),
    Clock.Sustains I pending → Clock.Sustains I started →
    Clock.Sustains I ((host.fire k).runWith book host pending started)
  sleep : ∀ d (pending : Work τ κ ω ε Nat) (started : Work τ κ ω ε Unit),
    Clock.Sustains I pending → Clock.Sustains I started →
    Clock.Sustains I ((host.sleep d).runWith book host pending started)

/-- The same without books. -/
abbrev Host.Sustains (host : Host τ κ ω ε) (I : Clock τ κ × ω → Prop) : Prop :=
  host.SustainsWith unbooked I

/-- A host that keeps a property of the world sustains it on any clock. -/
theorem Host.Keeps.sustains (h : host.Keeps I) : host.Sustains fun s => I s.2 where
  reschedule _ _ _ _ _ _ _ hs := hs
  count _ _ hs := hs
  startWith _ hwork := keeps_iff_sustains.mp (keeps_startWith h (keeps_iff_sustains.mpr hwork))
  fire k _ _ hpending hstarted := keeps_iff_sustains.mp
    (h.fire k _ _ (keeps_iff_sustains.mpr hpending) (keeps_iff_sustains.mpr hstarted))
  sleep d _ _ hpending hstarted := keeps_iff_sustains.mp
    (h.sleep d _ _ (keeps_iff_sustains.mpr hpending) (keeps_iff_sustains.mpr hstarted))

/-- A routine leaves a clock that is not running so, if whatever it has the clock do does. -/
theorem sustains_idle (host : Host τ κ ω ε) (r : Routine τ κ ω ε) {pending : Work τ κ ω ε Nat}
    {started : Work τ κ ω ε Unit} (hpending : Sustains (fun s => s.1.running = false) pending)
    (hstarted : Sustains (fun s => s.1.running = false) started) :
    Sustains (fun s => s.1.running = false) (r.run host pending started) := by
  induction r with
  | done => exact fun s hs => hs
  | fail reason => exact fun s hs => hs
  | read next ih => exact fun s hs => ih s.2 s hs
  | write w next ih => exact fun s hs => ih (s.1, w) hs
  | add source next ih =>
    rintro ⟨c, w⟩ hs
    cases hadd : c.add (host.now w) source with
    | ok d =>
      rw [run_add_of_ok hadd]
      refine ih (d, w) ?_
      rw [Clock.add] at hadd
      split at hadd
      · cases hadd
      · rw [← Except.ok.inj hadd]
        exact hs
    | error e =>
      rw [run_add_of_error hadd]
      exact hs
  | runPending next ih => exact hpending.bind ih
  | start next ih => exact hstarted.bind fun _ => ih
  | stop next ih => exact fun s _ => ih (s.1.stop, host.told (.stopped s.1.dispatched) s.2) rfl
  | attempt part catches next ihpart ihnext => exact ihpart.attempted ihnext

/-- Whatever is done on a clock that is not running leaves it so. -/
theorem host_sustains_idle (host : Host τ κ ω ε) :
    host.Sustains fun s => s.1.running = false where
  reschedule _ _ _ _ _ _ _ hs := hs
  count _ _ hs := hs
  startWith work _ := fun _ hs => running_startWith work hs
  fire k _ _ hpending hstarted := sustains_idle host (host.fire k) hpending hstarted
  sleep d _ _ hpending hstarted := sustains_idle host (host.sleep d) hpending hstarted

variable [Sub τ]

/-! ## One firing, one turn -/

/-- What is left of a pass after a firing. -/
def passOnWith (book : Entry τ κ → ω → ω) (host : Host τ κ ω ε) (fuel : Nat) (now : τ)
    (fired : Nat) : Work τ κ ω ε Nat :=
  fun s => passWith book host fuel now (fired + 1) (s.1.countFiring, s.2)

/-- What is left of a turn after its pass: a sleep until the next event, and the next turn. -/
def turnOnWith (book : Entry τ κ → ω → ω) (host : Host τ κ ω ε) (fuel : Nat) :
    Work τ κ ω ε Unit := fun s =>
  match s.1.delay? (host.now s.2) with
  | none => .ok () s
  | some d =>
    if !s.1.running then .ok () s
    else if 0 < d then
      ((host.sleep d).runWith book host (runPendingWith book host fuel)
          (startingWith book host fuel) >>= fun _ =>
        loopWith book host fuel) s
    else loopWith book host fuel s

/-- **A pass** fires the first event if it is due, and goes on. -/
theorem passWith_succ (fuel : Nat) (now : τ) (fired : Nat) (c : Clock τ κ) (w : ω) :
    passWith book host (fuel + 1) now fired (c, w) =
      match c.events.pop? Event.before with
      | none => .ok fired (c, w)
      | some (e, rest) =>
        if e.due ≤ now then
          ((host.fire e.source.command).runWith book host (runPendingWith book host fuel)
              (startingWith book host fuel) >>= fun _ => passOnWith book host fuel now fired)
            (c.reschedule e rest now, book (.taken e now (c.nextEvent e now)) w)
        else .ok fired (c, w) := by
  rw [passWith]
  simp only
  cases c.events.pop? Event.before with
  | none => rfl
  | some popped =>
    obtain ⟨e, rest⟩ := popped
    have hpending : (fun s => passWith book host fuel (host.now s.2) 0 s) =
      runPendingWith book host fuel := rfl
    have hstart : startWith host (loopWith book host fuel) = startingWith book host fuel := rfl
    simp only [hpending, hstart]
    split
    · show _ = EStateM.bind _ _ _
      rw [EStateM.bind]
      cases (host.fire e.source.command).runWith book host (runPendingWith book host fuel)
        (startingWith book host fuel)
        (c.reschedule e rest now, book (.taken e now (c.nextEvent e now)) w) <;> rfl
    · rfl

/-- **A turn of the loop** passes over what is due, and goes on. -/
theorem loopWith_succ (fuel : Nat) (c : Clock τ κ) (w : ω) :
    loopWith book host (fuel + 1) (c, w) =
      if c.running && !c.events.isEmpty then
        (passWith book host fuel (host.now w) 0 >>= fun _ => turnOnWith book host fuel) (c, w)
      else .ok () (c, w) := by
  rw [loopWith]
  simp only
  split
  · show _ = EStateM.bind _ _ _
    rw [EStateM.bind]
    cases passWith book host fuel (host.now w) 0 (c, w) with
    | error i s => rfl
    | ok n s =>
      obtain ⟨c, w⟩ := s
      have hpending : (fun s => passWith book host fuel (host.now s.2) 0 s) =
        runPendingWith book host fuel := rfl
      have hstart : startWith host (loopWith book host fuel) = startingWith book host fuel := rfl
      simp only [turnOnWith, hpending, hstart]
      cases c.delay? (host.now w) with
      | none => rfl
      | some d =>
        simp only
        split
        · rfl
        · split
          · show _ = EStateM.bind _ _ _
            rw [EStateM.bind]
            cases (host.sleep d).runWith book host (runPendingWith book host fuel)
              (startingWith book host fuel) (c, w) <;> rfl
          · rfl
  · rfl

/-- What is left of a pass after a firing, without books. -/
def passOn (host : Host τ κ ω ε) (fuel : Nat) (now : τ) (fired : Nat) : Work τ κ ω ε Nat :=
  passOnWith unbooked host fuel now fired

/-- What is left of a turn after its pass, without books. -/
def turnOn (host : Host τ κ ω ε) (fuel : Nat) : Work τ κ ω ε Unit := turnOnWith unbooked host fuel

theorem turnOn_eq (fuel : Nat) (s : Clock τ κ × ω) :
    turnOn host fuel s =
      match s.1.delay? (host.now s.2) with
      | none => .ok () s
      | some d =>
        if !s.1.running then .ok () s
        else if 0 < d then
          ((host.sleep d).run host (runPending host fuel) (start host fuel) >>= fun _ =>
            loop host fuel) s
        else loop host fuel s :=
  rfl

theorem pass_succ (fuel : Nat) (now : τ) (fired : Nat) (c : Clock τ κ) (w : ω) :
    pass host (fuel + 1) now fired (c, w) =
      match c.events.pop? Event.before with
      | none => .ok fired (c, w)
      | some (e, rest) =>
        if e.due ≤ now then
          ((host.fire e.source.command).run host (runPending host fuel) (start host fuel) >>=
            fun _ => passOn host fuel now fired) (c.reschedule e rest now, w)
        else .ok fired (c, w) :=
  passWith_succ fuel now fired c w

theorem loop_succ (fuel : Nat) (c : Clock τ κ) (w : ω) :
    loop host (fuel + 1) (c, w) =
      if c.running && !c.events.isEmpty then
        (pass host fuel (host.now w) 0 >>= fun _ => turnOn host fuel) (c, w)
      else .ok () (c, w) :=
  loopWith_succ fuel c w

/-! ## Runs -/

/-- **What a clock in a host sustains,** every pass and every loop sustains. -/
theorem sustains_passWith_loopWith {I : Clock τ κ × ω → Prop} (h : host.SustainsWith book I)
    (fuel : Nat) :
    (∀ now fired, Sustains I (passWith book host fuel now fired)) ∧
      Sustains I (loopWith book host fuel) := by
  induction fuel with
  | zero => exact ⟨fun now fired s hs => hs, fun s hs => hs⟩
  | succ fuel ih =>
    obtain ⟨hpass, hloop⟩ := ih
    have hpending : Sustains I (runPendingWith book host fuel) :=
      fun s hs => hpass (host.now s.2) 0 s hs
    have hstarted : Sustains I (startingWith book host fuel) := h.startWith _ hloop
    have hnext (now fired) : Sustains I (passOnWith book host fuel now fired) := by
      intro s hs
      exact hpass now (fired + 1) _ (h.count s.1 s.2 hs)
    have hturn : Sustains I (turnOnWith book host fuel) := by
      intro s hs
      rw [turnOnWith]
      split
      · exact hs
      · split
        · exact hs
        · split
          · exact ((h.sleep _ _ _ hpending hstarted).bind fun _ => hloop) s hs
          · exact hloop s hs
    constructor
    · rintro now fired ⟨c, w⟩ hs
      rw [passWith_succ]
      split
      · exact hs
      · rename_i e rest hpop
        split
        · rename_i hdue
          exact ((h.fire _ _ _ hpending hstarted).bind fun _ => hnext now fired) _
            (h.reschedule c w e rest now hpop hdue hs)
        · exact hs
    · rintro ⟨c, w⟩ hs
      rw [loopWith_succ]
      split
      · exact ((hpass (host.now w) 0).bind fun _ => hturn) (c, w) hs
      · exact hs

/-- So do those without books. -/
theorem sustains_pass_loop {I : Clock τ κ × ω → Prop} (h : host.Sustains I) (fuel : Nat) :
    (∀ now fired, Sustains I (pass host fuel now fired)) ∧ Sustains I (loop host fuel) :=
  sustains_passWith_loopWith h fuel

/-- **What a host keeps,** every pass and every loop keeps. -/
theorem keeps_pass_loop (h : host.Keeps I) (fuel : Nat) :
    (∀ now fired, Keeps I (pass host fuel now fired)) ∧ Keeps I (loop host fuel) := by
  obtain ⟨hpass, hloop⟩ := sustains_pass_loop h.sustains fuel
  exact ⟨fun now fired => keeps_iff_sustains.mpr (hpass now fired), keeps_iff_sustains.mpr hloop⟩

/-- What a clock in a host sustains, a routine from outside sustains if it does so itself. -/
theorem sustains_perform {I : Clock τ κ × ω → Prop} (h : host.Sustains I)
    {routine : Routine τ κ ω ε}
    (hroutine : ∀ (pending : Work τ κ ω ε Nat) (started : Work τ κ ω ε Unit), Sustains I pending →
      Sustains I started → Sustains I (routine.run host pending started)) (fuel : Nat) :
    Sustains I (perform host fuel routine) := by
  obtain ⟨hpass, hloop⟩ := sustains_pass_loop h fuel
  exact hroutine _ _ (fun s hs => hpass (host.now s.2) 0 s hs) (h.startWith _ hloop)

/-- What a host keeps, a routine from outside keeps if it does so itself. -/
theorem keeps_perform (h : host.Keeps I) {routine : Routine τ κ ω ε}
    (hroutine : ∀ (pending : Work τ κ ω ε Nat) (started : Work τ κ ω ε Unit), Keeps I pending →
      Keeps I started → Keeps I (routine.run host pending started)) (fuel : Nat) :
    Keeps I (perform host fuel routine) := by
  obtain ⟨hpass, hloop⟩ := keeps_pass_loop h fuel
  exact hroutine _ _ (fun c w hw => hpass (host.now w) 0 c w hw) (keeps_startWith h hloop)

end Ls8.Clock
