import Ls8.Proofs.Clock.Firings

/-
  The ledger of a clock: everything that is done to its schedule, in order.

  A host sees which commands are fired and when, but not which event a firing belongs to, since
  routines know nothing of the numbers of events.  The ledger is kept by the clock itself: it notes
  each event that is added, each event that is taken out because it is due, together with the event
  that takes its place, and each stop.

  1. **Keeping books** (`passBooked`, `loopBooked`, `Routine.runBooked`) is done beside the world.
     It is the clock itself, with its entries put down in the ledger (`Booked.enter`).

  2. **The books are true:** the commands of what was taken are those that were fired
     (`agree_passBooked_loopBooked`), and but for the ledger everything ends as it does without
     (`projects_passBooked`, `projects_performBooked`).

  3. **What a ledger says of its clock** is kept by whatever is done, if adding, taking and stopping
     keep it (`Kept.sustains`, `Kept.performBooked`).
-/

namespace Ls8.Clock

variable {τ κ ω ε α : Type}

/-- What was done to a schedule, the earliest first. -/
abbrev Ledger (τ κ : Type) := List (Entry τ κ)

/-- A ledger beside a world. -/
abbrev Booked (τ κ ω : Type) := Ledger τ κ × ω

/-- A world whose ledger has one more entry. -/
def Booked.enter (entry : Entry τ κ) (s : Booked τ κ ω) : Booked τ κ ω := (s.1 ++ [entry], s.2)

/-- An event that was taken out, with the one that took its place. -/
def Entry.taken? : Entry τ κ → Option (Event τ κ × Event τ κ)
  | .taken event _ again => some (event, again)
  | _ => none

namespace Ledger

/-- **The events that were fired,** each with the one that took its place. -/
def taken (ledger : Ledger τ κ) : List (Event τ κ × Event τ κ) := ledger.filterMap Entry.taken?

theorem taken_append (a b : Ledger τ κ) : taken (a ++ b) = taken a ++ taken b :=
  List.filterMap_append

/-- The commands that were run. -/
def commands (ledger : Ledger τ κ) : List κ := ledger.taken.map fun f => f.1.source.command

end Ledger

variable [Add τ] [Zero τ] [LE τ] [LT τ] [DecidableLE τ] [DecidableLT τ]

/-- **Runs a routine and keeps books.** -/
def Routine.runBooked (host : Host τ κ ω ε) (pending : Work τ κ (Booked τ κ ω) ε Nat)
    (started : Work τ κ (Booked τ κ ω) ε Unit) (routine : Routine τ κ ω ε) :
    Work τ κ (Booked τ κ ω) ε Unit :=
  (routine.beside (Ledger τ κ)).runWith Booked.enter (host.beside (Ledger τ κ)) pending started

section Adding
variable {host : Host τ κ ω ε} {pending : Work τ κ (Booked τ κ ω) ε Nat}
variable {started : Work τ κ (Booked τ κ ω) ε Unit} {source : Source τ κ} {next : Routine τ κ ω ε}
variable {c d : Clock τ κ} {s : Booked τ κ ω}

theorem runBooked_add_of_ok (h : c.add (host.now s.2) source = .ok d) :
    (Routine.add source next).runBooked host pending started (c, s) =
      next.runBooked host pending started
        (d, s.enter (.added (c.firstEvent source (host.now s.2)) (host.now s.2))) := by
  have hadd : c.add ((host.beside (Ledger τ κ)).now s) source = .ok d := h
  exact runWith_add_of_ok hadd

theorem runBooked_add_of_error {e : IntervalError} (h : c.add (host.now s.2) source = .error e) :
    (Routine.add source next).runBooked host pending started (c, s) =
      .error (.refused e) (c, s) := by
  have hadd : c.add ((host.beside (Ledger τ κ)).now s) source = .error e := h
  exact runWith_add_of_error hadd

end Adding

variable [Sub τ]

/-- **Fires what is due and keeps books.** -/
def passBooked (host : Host τ κ ω ε) (fuel : Nat) (now : τ) (fired : Nat) :
    Work τ κ (Booked τ κ ω) ε Nat :=
  passWith Booked.enter (host.beside (Ledger τ κ)) fuel now fired

/-- **Runs the clock and keeps books.** -/
def loopBooked (host : Host τ κ ω ε) (fuel : Nat) : Work τ κ (Booked τ κ ω) ε Unit :=
  loopWith Booked.enter (host.beside (Ledger τ κ)) fuel

/-- Running what is pending, as a routine that is run with so much fuel does. -/
def pendingBooked (host : Host τ κ ω ε) (fuel : Nat) : Work τ κ (Booked τ κ ω) ε Nat :=
  runPendingWith Booked.enter (host.beside (Ledger τ κ)) fuel

/-- Running the clock, as a routine that is run with so much fuel does. -/
def startBooked (host : Host τ κ ω ε) (fuel : Nat) : Work τ κ (Booked τ κ ω) ε Unit :=
  startingWith Booked.enter (host.beside (Ledger τ κ)) fuel

/-- What is left of a pass after a firing. -/
def passOnBooked (host : Host τ κ ω ε) (fuel : Nat) (now : τ) (fired : Nat) :
    Work τ κ (Booked τ κ ω) ε Nat :=
  passOnWith Booked.enter (host.beside (Ledger τ κ)) fuel now fired

/-- A routine performed from outside, with books kept. -/
def performBooked (host : Host τ κ ω ε) (fuel : Nat) (routine : Routine τ κ ω ε) :
    Work τ κ (Booked τ κ ω) ε Unit :=
  routine.runBooked host (pendingBooked host fuel) (startBooked host fuel)

/-- **What a caller outside comes to** who performs one routine after the other, each with so much
    fuel, and goes on whether they succeed or fail. -/
def performAllBooked (host : Host τ κ ω ε) (calls : List (Nat × Routine τ κ ω ε))
    (s : Clock τ κ × Booked τ κ ω) : Clock τ κ × Booked τ κ ω :=
  calls.foldl (fun s call => stateLeft (performBooked host call.1 call.2 s)) s

theorem passBooked_succ (host : Host τ κ ω ε) (fuel : Nat) (now : τ) (fired : Nat) (c : Clock τ κ)
    (s : Booked τ κ ω) :
    passBooked host (fuel + 1) now fired (c, s) =
      match c.events.pop? Event.before with
      | none => .ok fired (c, s)
      | some (e, rest) =>
        if e.due ≤ now then
          ((host.fire e.source.command).runBooked host (pendingBooked host fuel)
              (startBooked host fuel) >>= fun _ => passOnBooked host fuel now fired)
            (c.reschedule e rest now, s.enter (.taken e now (c.nextEvent e now)))
        else .ok fired (c, s) :=
  passWith_succ fuel now fired c s

/-! ## Books agree with logs -/

section Agreement
variable {host : Host τ κ ω ε} {pending : Work τ κ (Booked τ κ ω) ε Nat}
variable {pending' : Work τ κ (Log κ ω × ω) ε Nat} {started : Work τ κ (Booked τ κ ω) ε Unit}
variable {started' : Work τ κ (Log κ ω × ω) ε Unit}

/-- The commands that were run, and the world, as the ledger has it. -/
def Booked.observed (s : Booked τ κ ω) : List κ × ω := (s.1.commands, s.2)

/-- The commands that were run, and the world, as the log has it. -/
def observedLog (s : Log κ ω × ω) : List κ × ω := (s.1.map (·.1), s.2)

omit [Add τ] [Zero τ] [LE τ] [LT τ] [DecidableLE τ] [DecidableLT τ] [Sub τ] in
/-- What is not a firing is not observed. -/
theorem commands_enter (ledger : Ledger τ κ) {entry : Entry τ κ} (h : entry.taken? = none) :
    Ledger.commands (ledger ++ [entry]) = ledger.commands := by
  have hnone : Ledger.taken [entry] = [] := List.filterMap_eq_nil_iff.mpr (by simpa using h)
  rw [Ledger.commands, Ledger.taken_append, hnone, List.append_nil]
  rfl

omit [Add τ] [Zero τ] [LE τ] [LT τ] [DecidableLE τ] [DecidableLT τ] [Sub τ] in
theorem commands_fire (ledger : Ledger τ κ) (e : Event τ κ) (now : τ) (again : Event τ κ) :
    Ledger.commands (ledger ++ [.taken e now again]) = ledger.commands ++ [e.source.command] := by
  rw [Ledger.commands, Ledger.taken_append, List.map_append]
  rfl

omit [Sub τ] in
/-- A routine of which books are kept does what it does beside a log. -/
theorem agree_runBooked (host : Host τ κ ω ε)
    (hpending : Agree Booked.observed observedLog pending pending')
    (hstarted : Agree Booked.observed observedLog started started') (r : Routine τ κ ω ε) :
    Agree Booked.observed observedLog (r.runBooked host pending started)
      ((r.beside (Log κ ω)).run host.logged pending' started') := by
  induction r with
  | done => exact agree_pure ()
  | fail reason => exact agree_throw (.failed reason)
  | read next ih =>
    rintro c ⟨ledger, w⟩ ⟨log, v⟩ hst
    obtain ⟨_, rfl⟩ := Prod.mk.inj hst
    exact ih w c (ledger, w) (log, w) hst
  | write v next ih =>
    rintro c ⟨ledger, w⟩ ⟨log, w'⟩ hst
    obtain ⟨hcommands, _⟩ := Prod.mk.inj hst
    exact ih c (ledger, v) (log, v) (congrArg (·, v) hcommands)
  | add source next ih =>
    rintro c ⟨ledger, w⟩ ⟨log, v⟩ hst
    obtain ⟨hcommands, rfl⟩ := Prod.mk.inj hst
    show projectedResult _ ((Routine.add source next).runBooked host pending started (c, _)) =
      projectedResult _
        ((Routine.add source (next.beside _)).run host.logged pending' started' (c, _))
    cases hadd : c.add (host.now w) source with
    | ok d =>
      have hadd' : c.add (host.logged.now (log, w)) source = .ok d := hadd
      rw [runBooked_add_of_ok hadd, run_add_of_ok hadd']
      exact ih d _ (log, w) (congrArg (·, w) ((commands_enter ledger rfl).trans hcommands))
    | error e =>
      have hadd' : c.add (host.logged.now (log, w)) source = .error e := hadd
      rw [runBooked_add_of_error hadd, run_add_of_error hadd']
      exact agree_throw (.refused e) c _ _ hst
  | runPending next ih => exact hpending.bind ih
  | start next ih => exact hstarted.bind fun _ => ih
  | stop next ih =>
    rintro c ⟨ledger, w⟩ ⟨log, v⟩ hst
    obtain ⟨hcommands, rfl⟩ := Prod.mk.inj hst
    exact ih c.stop _ (log, host.told (.stopped c.dispatched) w)
      (congrArg (·, _) ((commands_enter ledger rfl).trans hcommands))
  | attempt part catches next ihpart ihnext => exact ihpart.attempted ihnext

omit [Sub τ] in
/-- **Keeping books and keeping a log** come to the same: what is taken out is noted in the ledger, and
    its command in the log. -/
theorem booked_agrees_logged (host : Host τ κ ω ε) :
    (host.beside (Ledger τ κ)).AgreesWith Booked.observed observedLog Booked.enter unbooked
      host.logged where
  now := by
    rintro ⟨ledger, w⟩ ⟨log, v⟩ hst
    obtain ⟨_, rfl⟩ := Prod.mk.inj hst
    rfl
  told := by
    rintro n ⟨ledger, w⟩ ⟨log, v⟩ hst
    obtain ⟨hcommands, rfl⟩ := Prod.mk.inj hst
    exact congrArg (·, host.told n w) hcommands
  fire := by
    rintro e now again pending pending' started started' hpending hstarted c ⟨ledger, w⟩ ⟨log, v⟩ hst
    obtain ⟨hcommands, rfl⟩ := Prod.mk.inj hst
    have hnoted : Ledger.commands (ledger ++ [.taken e now again]) =
        (log ++ [(e.source.command, w)]).map (·.1) := by
      rw [commands_fire, List.map_append, hcommands]
      rfl
    exact agree_runBooked host hpending hstarted (host.fire e.source.command) c
      (ledger ++ [.taken e now again], w) (log ++ [(e.source.command, w)], w)
      (congrArg (·, w) hnoted)
  sleep d _ _ _ _ hpending hstarted := agree_runBooked host hpending hstarted (host.sleep d)

/-- **Passes and loops of which books are kept** do what they do in a host that keeps a log: the
    commands of what was taken are those that were run. -/
theorem agree_passBooked_loopBooked (host : Host τ κ ω ε) (fuel : Nat) :
    (∀ now fired, Agree Booked.observed observedLog (passBooked host fuel now fired)
      (pass host.logged fuel now fired)) ∧
    Agree Booked.observed observedLog (loopBooked host fuel) (loop host.logged fuel) :=
  agree_passWith_loopWith (booked_agrees_logged host) fuel

/-- **Books agree with logs** about everything that is done from outside. -/
theorem agree_performBooked (host : Host τ κ ω ε) (fuel : Nat) (routine : Routine τ κ ω ε) :
    Agree Booked.observed observedLog (performBooked host fuel routine)
      (performLogged host fuel routine) := by
  obtain ⟨hpass, hloop⟩ := agree_passBooked_loopBooked host fuel
  have hagrees := booked_agrees_logged host
  exact agree_runBooked host (hagrees.runPending hpass) (agree_startWith hagrees.told hloop) routine

/-- **The firings of a pass** are those of the events that were taken. -/
theorem firings_of_booked {fuel n : Nat} {c d : Clock τ κ} {w v : ω} {ledger : Ledger τ κ}
    (h : passBooked host fuel (host.now w) 0 (c, ([], w)) = .ok n (d, (ledger, v))) :
    (firings host fuel (.runPending fun _ => .done) (c, w)).map (·.1) = ledger.commands := by
  have hagree := (agree_passBooked_loopBooked host fuel).1 (host.now w) 0 c ([], w) ([], w) rfl
  rw [h] at hagree
  rw [firings_runPending]
  show (worldLeft (pass host.logged fuel (host.now w) 0 (c, ([], w)))).1.map (·.1) = _
  rcases eq_or_eq_of_projectedResult_eq hagree with
    ⟨_, _, _, t, hsame, hl, hr⟩ | ⟨_, _, _, _, _, hl, _⟩
  · obtain ⟨_, hstate⟩ := EStateM.Result.ok.inj hl
    obtain ⟨_, rfl⟩ := Prod.mk.inj hstate
    rw [hr]
    exact (congrArg Prod.fst hsame).symm
  · cases hl

end Agreement

/-! ## Keeping books changes nothing -/

omit [Add τ] [Zero τ] [LE τ] [LT τ] [DecidableLE τ] [DecidableLT τ] [Sub τ] in
/-- For every ledger there is a log with the same commands. -/
theorem exists_observedLog (s : Booked τ κ ω) : ∃ t : Log κ ω × ω, s.observed = observedLog t := by
  refine ⟨(s.1.commands.map fun k => (k, s.2), s.2), ?_⟩
  show (s.1.commands, s.2) = ((s.1.commands.map fun k => (k, s.2)).map (·.1), s.2)
  rw [List.map_map]
  exact congrArg (·, s.2) (List.map_id _).symm

/-- **A pass of which books are kept** ends as it does without. -/
theorem projects_passBooked (host : Host τ κ ω ε) (fuel : Nat) (now : τ) (fired : Nat) :
    Projects Prod.snd (passBooked host fuel now fired) (pass host fuel now fired) :=
  ((agree_passBooked_loopBooked host fuel).1 now fired).projects exists_observedLog
    (h := Prod.snd) ((projects_pass_loop (logged_projectsTo host) fuel).1 now fired)

/-- **Keeping books changes nothing:** but for the ledger, a routine that is performed ends as it
    does without. -/
theorem projects_performBooked (host : Host τ κ ω ε) (fuel : Nat) (routine : Routine τ κ ω ε) :
    Projects Prod.snd (performBooked host fuel routine) (perform host fuel routine) :=
  (agree_performBooked host fuel routine).projects exists_observedLog (h := Prod.snd)
    (projects_performLogged host fuel routine)

/-- So do several of them, one after the other. -/
theorem projected_performAllBooked (host : Host τ κ ω ε) (calls : List (Nat × Routine τ κ ω ε))
    (s : Clock τ κ × Booked τ κ ω) :
    projected Prod.snd (performAllBooked host calls s) =
      calls.foldl (fun s call => stateLeft (perform host call.1 call.2 s))
        (projected Prod.snd s) := by
  induction calls generalizing s with
  | nil => rfl
  | cons call calls ih =>
    have hfirst := (projects_performBooked host call.1 call.2).stateLeft s
    show projected Prod.snd (performAllBooked host calls _) = List.foldl _ _ calls
    rw [ih, hfirst]

/-! ## What a ledger says of its clock -/

/-- **What is done to a schedule keeps** what the ledger says of its clock. -/
structure Kept (I : Clock τ κ → Ledger τ κ → Prop) : Prop where
  add : ∀ c ledger source now, ¬ source.interval ≤ 0 → I c ledger →
    I (c.schedule source (now + source.interval)) (ledger ++ [.added (c.firstEvent source now) now])
  take : ∀ c ledger e rest now, c.events.pop? Event.before = some (e, rest) → e.due ≤ now →
    I c ledger → I (c.reschedule e rest now) (ledger ++ [.taken e now (c.nextEvent e now)])
  stop : ∀ c ledger, I c ledger → I c.stop (ledger ++ [.dropped])
  congr : ∀ c d ledger, d.events = c.events → d.sequence = c.sequence → I c ledger → I d ledger

/-- What the ledger of a state says of its clock. -/
def OfLedger (I : Clock τ κ → Ledger τ κ → Prop) (s : Clock τ κ × Booked τ κ ω) : Prop :=
  I s.1 s.2.1

namespace Kept

variable {I : Clock τ κ → Ledger τ κ → Prop} {host : Host τ κ ω ε}

omit [Sub τ] in
/-- A routine keeps it, if whatever it has the clock do does. -/
theorem runBooked (h : Kept I) (host : Host τ κ ω ε) {pending : Work τ κ (Booked τ κ ω) ε Nat}
    {started : Work τ κ (Booked τ κ ω) ε Unit} (hpending : Sustains (OfLedger I) pending)
    (hstarted : Sustains (OfLedger I) started) (r : Routine τ κ ω ε) :
    Sustains (OfLedger I) (r.runBooked host pending started) := by
  induction r with
  | done => exact fun s hs => hs
  | fail reason => exact fun s hs => hs
  | read next ih => exact fun s hs => ih s.2.2 s hs
  | write w next ih => exact fun s hs => ih (s.1, (s.2.1, w)) hs
  | add source next ih =>
    rintro ⟨c, s⟩ hs
    by_cases hpos : source.interval ≤ 0
    · rw [runBooked_add_of_error (if_pos hpos)]
      exact hs
    · rw [runBooked_add_of_ok (if_neg hpos)]
      exact ih _ (h.add c s.1 source (host.now s.2) hpos hs)
  | runPending next ih => exact hpending.bind ih
  | start next ih => exact hstarted.bind fun _ => ih
  | stop next ih => exact fun s hs => ih _ (h.stop s.1 s.2.1 hs)
  | attempt part catches next ihpart ihnext => exact ihpart.attempted ihnext

omit [Sub τ] in
/-- **A clock whose books say it** sustains it. -/
theorem sustains (h : Kept I) (host : Host τ κ ω ε) :
    (host.beside (Ledger τ κ)).SustainsWith Booked.enter (OfLedger I) where
  reschedule c s e rest now hpop hdue hs := h.take c s.1 e rest now hpop hdue hs
  count c s hs := h.congr c _ s.1 rfl rfl hs
  -- whether the clock is marked as running does not matter
  startWith _ hwork := hwork.startWith (fun c s hs => h.congr c _ s.1 rfl rfl hs)
    fun c s hs => h.congr c _ s.1 rfl rfl hs
  fire k _ _ hpending hstarted := h.runBooked host hpending hstarted (host.fire k)
  sleep d _ _ hpending hstarted := h.runBooked host hpending hstarted (host.sleep d)

/-- **Whatever is done from outside keeps it.** -/
theorem performBooked (h : Kept I) (host : Host τ κ ω ε) (fuel : Nat) (r : Routine τ κ ω ε) :
    Sustains (OfLedger I) (Clock.performBooked host fuel r) := by
  obtain ⟨hpass, hloop⟩ := sustains_passWith_loopWith (h.sustains host) fuel
  exact h.runBooked host (fun s hs => hpass (host.now s.2.2) 0 s hs)
    ((h.sustains host).startWith _ hloop) r

theorem performAllBooked (h : Kept I) (host : Host τ κ ω ε) (calls : List (Nat × Routine τ κ ω ε))
    {s : Clock τ κ × Booked τ κ ω} (hs : OfLedger I s) :
    OfLedger I (Clock.performAllBooked host calls s) := by
  induction calls generalizing s with
  | nil => exact hs
  | cons call calls ih => exact ih (h.performBooked host call.1 call.2 s hs)

end Kept

end Ls8.Clock
