import Ls8.Proofs.Clock.Conservation
import Ls8.Proofs.Clock.Endings

/-
  Hosts that use the clock for nothing but stopping it.

  A plain routine writes to the world, stops the clock or fails; it adds no source, neither runs what
  is pending nor starts the clock, and catches nothing (`Routine.Plain`).  In a host of plain routines
  a run has no runs inside it, so what holds of the clock, of the journal and of the world can be
  followed from one happening to the next (`Host.Guards`).

  1. **Time.**  A pass reads the time once and then fires all that was due at that time, while the world
     goes on.  So a guarded property may use that the world of a firing is later than the one in which
     the pass has read its time, for any notion of later that the routines of the host respect.

  2. **The crux** is the firing: it is there that the next firing of a source is scheduled and that
     something is noted in the journal.

  Main statements: a guarded property is sustained by every pass and every loop (`sustains_plain`), and
  it holds whenever a routine has control in the course of them (`Control.guarded`); a loop that
  succeeds has found the clock stopped or without events (`finished_of_loop`).
-/

namespace Ls8.Clock

variable {τ κ ω ε α : Type}

/-- **A routine is plain** from the world `w` on: it uses the clock for nothing but stopping it, and the
    worlds that it writes are later and later. -/
def Routine.Plain (host : Host τ κ ω ε) (later : ω → ω → Prop) : Routine τ κ ω ε → ω → Prop
  | .done, _ => True
  | .fail _, _ => True
  | .read next, w => (next w).Plain host later w
  | .write v next, w => later w v ∧ next.Plain host later v
  | .add _ _, _ => False
  | .runPending _, _ => False
  | .start _, _ => False
  | .stop next, w => ∀ n, next.Plain host later (host.told (.stopped n) w)
  | .attempt _ _ _, _ => False

/-- **A host is plain:** all its routines are, for one notion of later worlds. -/
structure Host.Plain [Zero τ] [LT τ] (host : Host τ κ ω ε) (later : ω → ω → Prop) : Prop where
  refl : ∀ w, later w w
  trans : ∀ {u v w}, later u v → later v w → later u w
  fire : ∀ k w, (host.fire k).Plain host later w
  sleep : ∀ d w, 0 < d → (host.sleep d).Plain host later w
  told : ∀ n w, later w (host.told n w)

/-- **What happens keeps a property** of the clock, the journal and the world.  A firing happens in a
    pass that has read its time in an earlier world `u`. -/
structure Host.Guards [Add τ] [LE τ] [LT τ] [DecidableLE τ] [DecidableLT τ] (host : Host τ κ ω ε)
    (later : ω → ω → Prop) (I : Clock τ κ × Journaled τ κ ω → Prop) : Prop where
  write : ∀ c journal w v, later w v → I (c, (journal, w)) → I (c, (journal, v))
  stop : ∀ c s, I (c, s) → I (c.stop, host.journaled.told (.stopped c.dispatched) s)
  fire : ∀ c s e rest u, c.events.pop? Event.before = some (e, rest) → later u s.2 →
    e.due ≤ host.now u → I (c, s) →
    I (c.reschedule e rest (host.now u), note (.fired e.source.command) s)
  count : ∀ c s, I (c, s) → I (c.countFiring, s)
  sleep : ∀ c s d, I (c, s) → I (c, note (.slept d) s)

/-- The property holds, in a world that is later than `u`. -/
def Since (later : ω → ω → Prop) (I : Clock τ κ × Journaled τ κ ω → Prop) (u : ω)
    (s : Clock τ κ × Journaled τ κ ω) : Prop :=
  later u s.2.2 ∧ I s

variable {host : Host τ κ ω ε} {later : ω → ω → Prop} {I : Clock τ κ × Journaled τ κ ω → Prop}
variable [Add τ] [Zero τ] [LE τ] [LT τ] [DecidableLE τ] [DecidableLT τ]

/-- **A plain routine keeps a guarded property,** whatever the clock would do for it. -/
theorem since_of_plain (hplain : host.Plain later) (hguards : host.Guards later I)
    (pending : Work τ κ (Journaled τ κ ω) ε Nat) (started : Work τ κ (Journaled τ κ ω) ε Unit)
    {r : Routine τ κ ω ε} {s : Clock τ κ × Journaled τ κ ω} {u : ω}
    (hr : r.Plain host later s.2.2) (hs : Since later I u s) :
    Since later I u (stateLeft (r.journaled.run host.journaled pending started s)) := by
  induction r generalizing s with
  | done => exact hs
  | fail reason => exact hs
  | read next ih => exact ih s.2.2 hr hs
  | write v next ih =>
    refine ih (s := (s.1, (s.2.1, v))) hr.2 ⟨hplain.trans hs.1 hr.1, ?_⟩
    exact hguards.write s.1 s.2.1 s.2.2 v hr.1 hs.2
  | add source next ih => exact hr.elim
  | runPending next ih => exact hr.elim
  | start next ih => exact hr.elim
  | stop next ih =>
    refine ih (s := (s.1.stop, host.journaled.told (.stopped s.1.dispatched) s.2)) (hr _) ?_
    exact ⟨hplain.trans hs.1 (hplain.told _ _), hguards.stop s.1 s.2 hs.2⟩
  | attempt part catches next _ _ => exact hr.elim

/-- A firing, from the moment on at which the source is scheduled again. -/
theorem since_of_fire (hplain : host.Plain later) (hguards : host.Guards later I)
    (pending : Work τ κ (Journaled τ κ ω) ε Nat) (started : Work τ κ (Journaled τ κ ω) ε Unit)
    {c : Clock τ κ} {s : Journaled τ κ ω} {u v : ω} {e : Event τ κ} {rest : Heap (Event τ κ)}
    (hpop : c.events.pop? Event.before = some (e, rest)) (hv : later v s.2)
    (hdue : e.due ≤ host.now v) (hs : Since later I u (c, s)) :
    Since later I u (stateLeft ((host.journaled.fire e.source.command).run host.journaled pending
      started (c.reschedule e rest (host.now v), s))) :=
  since_of_plain hplain hguards pending started
    (s := (c.reschedule e rest (host.now v), note (.fired e.source.command) s))
    (hplain.fire _ _) ⟨hs.1, hguards.fire c s e rest v hpop hv hdue hs.2⟩

/-- A sleep. -/
theorem since_of_sleep (hplain : host.Plain later) (hguards : host.Guards later I)
    (pending : Work τ κ (Journaled τ κ ω) ε Nat) (started : Work τ κ (Journaled τ κ ω) ε Unit)
    {d : τ} (hd : 0 < d) {s : Clock τ κ × Journaled τ κ ω} {u : ω} (hs : Since later I u s) :
    Since later I u
      (stateLeft ((host.journaled.sleep d).run host.journaled pending started s)) :=
  since_of_plain hplain hguards pending started (s := (s.1, note (.slept d) s.2))
    (hplain.sleep _ _ hd) ⟨hs.1, hguards.sleep s.1 s.2 d hs.2⟩

variable [Sub τ]

/-! ## Passes and loops -/

/-- **What is guarded, passes and loops sustain.**  A pass at the time of the world `u` does so from any
    later world on. -/
theorem sustains_plain (hplain : host.Plain later) (hguards : host.Guards later I) (fuel : Nat) :
    (∀ u fired, Sustains (Since later I u) (pass host.journaled fuel (host.now u) fired)) ∧
      ∀ u, Sustains (Since later I u) (loop host.journaled fuel) := by
  induction fuel with
  | zero => exact ⟨fun u fired s hs => hs, fun u s hs => hs⟩
  | succ fuel ih =>
    obtain ⟨hpass, hloop⟩ := ih
    have hnext (u : ω) (fired : Nat) :
        Sustains (Since later I u) (passOn host.journaled fuel (host.now u) fired) :=
      fun s hs => hpass u (fired + 1) _ ⟨hs.1, hguards.count s.1 s.2 hs.2⟩
    have hturn (u : ω) : Sustains (Since later I u) (turnOn host.journaled fuel) := by
      intro s hs
      rw [turnOn_eq]
      split
      · exact hs
      · split
        · exact hs
        · split
          · rename_i d _ _ hd
            have hsleep : Sustains (Since later I u) ((host.journaled.sleep d).run host.journaled
                (runPending host.journaled fuel) (start host.journaled fuel)) :=
              fun s hs => since_of_sleep hplain hguards _ _ hd hs
            exact (hsleep.bind fun _ => hloop u) s hs
          · exact hloop u s hs
    constructor
    · rintro u fired ⟨c, s⟩ hs
      rw [pass_succ]
      split
      · exact hs
      · rename_i e rest hpop
        split
        · rename_i hdue
          exact stateLeft_bind (since_of_fire hplain hguards _ _ hpop hs.1 hdue hs)
            fun _ => hnext u fired
        · exact hs
    · rintro u ⟨c, s⟩ hs
      rw [loop_succ]
      split
      · -- the pass reads its time in the present world
        obtain ⟨hlater, hleft⟩ := hpass s.2 0 (c, s) ⟨hplain.refl s.2, hs.2⟩
        exact stateLeft_bind ⟨hplain.trans hs.1 hlater, hleft⟩ fun _ => hturn u
      · exact hs

/-- A loop that succeeds has found the clock stopped or without events. -/
theorem finished_of_loop {host : Host τ κ ω ε} {fuel : Nat} {s t : Clock τ κ × ω}
    (h : loop host fuel s = .ok () t) : Finished t := by
  have hanything {α : Type} {P : Clock τ κ × ω → Prop} (work : Work τ κ ω ε α) :
      Leaves P (fun _ => True) (fun _ _ => True) work := by
    intro s _
    cases work s <;> trivial
  have hupholds : host.Upholds (fun _ => True) fun _ _ => True :=
    ⟨fun _ _ _ _ _ _ _ _ _ => hanything _, fun _ _ _ => hanything _, fun _ _ => trivial⟩
  exact ((leaves_pass_loop hupholds fuel).2.of_ok trivial h).2

/-! ## Starts -/

/-- Starting a clock that is not running ends like its loop, with the clock not running. -/
theorem start_cases (host : Host τ κ ω ε) (fuel : Nat) {c : Clock τ κ} (w : ω)
    (hidle : c.running = false) :
    (∃ d v, loop host fuel ({ c with running := true }, host.told (.started c.events.size) w) =
        .ok () (d, v) ∧ start host fuel (c, w) = .ok () ({ d with running := false }, v)) ∨
      ∃ i d v, loop host fuel ({ c with running := true }, host.told (.started c.events.size) w) =
        .error i (d, v) ∧ start host fuel (c, w) = .error i ({ d with running := false }, v) := by
  rw [start, startWith, if_neg (by simpa using hidle)]
  cases loop host fuel ({ c with running := true }, host.told (.started c.events.size) w) with
  | ok u t => exact .inl ⟨t.1, t.2, rfl, rfl⟩
  | error i t => exact .inr ⟨i, t.1, t.2, rfl, rfl⟩

/-- **What is guarded holds after a start** but for the mark that the clock is running, if it holds when
    the loop begins. -/
theorem guarded_of_start (hplain : host.Plain later) (hguards : host.Guards later I) {fuel : Nat}
    {c : Clock τ κ} {s : Journaled τ κ ω} (hidle : c.running = false)
    (hbegun : I ({ c with running := true }, host.journaled.told (.started c.events.size) s)) :
    Idled I (stateLeft (start host.journaled fuel (c, s))) := by
  have hloop := (sustains_plain hplain hguards fuel).2 _ _ ⟨hplain.refl _, hbegun⟩
  rcases start_cases host.journaled fuel s hidle with ⟨d, v, hended, hstart⟩ | ⟨i, d, v, hended, hstart⟩
  all_goals
    rw [hended] at hloop
    rw [hstart]
    exact ⟨d.running, hloop.2, rfl⟩

/-- A clock that has been stopped has no events. -/
def Emptied (s : Clock τ κ × Journaled τ κ ω) : Prop := s.1.running = false → s.1.events = .empty

omit [Zero τ] [Sub τ] in
/-- **What happens stops a clock only by dropping its events.** -/
theorem guards_emptied (host : Host τ κ ω ε) (later : ω → ω → Prop) : host.Guards later Emptied where
  write _ _ _ _ _ h := h
  stop _ _ _ _ := rfl
  fire := by
    intro c s e rest u hpop _ _ h hidle
    rw [Heap.pop?_eq_none_iff.mpr (h hidle)] at hpop
    cases hpop
  count _ _ h := h
  sleep _ _ _ h := h

/-- **A start that returns** leaves no events. -/
theorem events_of_start (hplain : host.Plain later) {fuel : Nat} {c : Clock τ κ}
    {s : Journaled τ κ ω} {t : Clock τ κ × Journaled τ κ ω} (hidle : c.running = false)
    (h : start host.journaled fuel (c, s) = .ok () t) : t.1.events = .empty := by
  have hloop := (sustains_plain hplain (guards_emptied host later) fuel).2
    _ ({ c with running := true }, host.journaled.told (.started c.events.size) s)
    ⟨hplain.refl _, Bool.noConfusion⟩
  rcases start_cases host.journaled fuel s hidle with ⟨d, v, hended, hstart⟩ | ⟨i, d, v, _, hstart⟩
  · rw [h] at hstart
    cases hstart
    rw [hended] at hloop
    rcases finished_of_loop hended with hstopped | hempty
    · exact hloop.2 hstopped
    · exact hempty
  · rw [h] at hstart
    cases hstart

/-! ## Control -/

/-- **An activity is plain** in the world `w`: a plain routine, a pass that has read its time in an
    earlier world, or a loop. -/
def Activity.Plain (host : Host τ κ ω ε) (later : ω → ω → Prop) (w : ω) :
    Activity τ κ ω ε → Prop
  | .routine r => r.Plain host later w
  | .pass now => ∃ u, host.now u = now ∧ later u w
  | .loop => True

/-- **What is guarded holds whenever a routine has control** in the course of a plain activity, by
    induction on how control came to it. -/
theorem Control.guarded (hplain : host.Plain later) (hguards : host.Guards later I) {fuel : Nat}
    {activity : Activity τ κ ω ε} {s t : Clock τ κ × Journaled τ κ ω}
    (h : Control host fuel activity s t) (hactivity : activity.Plain host later s.2.2) (hs : I s) :
    I t := by
  -- a pass leads from the present world to a later one
  have passed {fuel n : Nat} {c d : Clock τ κ} {s s' : Journaled τ κ ω}
      (heq : pass host.journaled fuel (host.now s.2) 0 (c, s) = .ok n (d, s')) (hs : I (c, s)) :
      Since later I s.2 (d, s') := by
    exact of_stateLeft heq
      ((sustains_plain hplain hguards fuel).1 s.2 0 (c, s) ⟨hplain.refl s.2, hs⟩)
  induction h with
  | here => exact hs
  | read _ ih => exact ih hactivity hs
  | write _ ih => exact ih hactivity.2 (hguards.write _ _ _ _ hactivity.1 hs)
  | stop _ ih => exact ih (hactivity _) (hguards.stop _ _ hs)
  | add | runs | ran | starts | started | attempts | attempted | catches => exact hactivity.elim
  | fires hpop hdue _ ih =>
    obtain ⟨u, rfl, hu⟩ := hactivity
    exact ih (hplain.fire _ _) (hguards.fire _ _ _ _ u hpop hu hdue hs)
  | fired hpop hdue hdone _ ih =>
    obtain ⟨u, rfl, hu⟩ := hactivity
    have hleft : Since later I u (_, _) :=
      of_stateLeft hdone (since_of_fire hplain hguards _ _ hpop hu hdue ⟨hu, hs⟩)
    exact ih ⟨u, rfl, hleft.1⟩ (hguards.count _ _ hleft.2)
  | passes _ _ ih => exact ih ⟨_, rfl, hplain.refl _⟩ hs
  | sleeps _ hpassed _ _ hpos _ ih =>
    exact ih (hplain.sleep _ _ hpos) (hguards.sleep _ _ _ (passed hpassed hs).2)
  | slept _ hpassed _ _ hpos hdone _ ih =>
    have hleft : Since later I _ _ :=
      of_stateLeft hdone (since_of_sleep hplain hguards _ _ hpos (passed hpassed hs))
    exact ih trivial hleft.2
  | hurries _ hpassed _ _ _ _ ih => exact ih trivial (passed hpassed hs).2

end Ls8.Clock
