import Ls8.Proofs.Clock.World

/-
  How running a clock ends.

  A property that is merely sustained (`Host.Sustains`) says the same of work that succeeded and of
  work that failed.  Here the two are told apart: work that starts where `P` holds ends where `Q`
  holds if it succeeds, and where `E` holds, which may depend on the cause, if it does not (`Leaves`).

  1. **The rule** for a clock in a host (`Host.Upholds`) asks for three things: a firing leads from
     the invariant back to it, or fails as `E` says; so does a sleep; and `E` allows to run out of
     fuel wherever the invariant holds.  Routines are taken here by themselves, whatever the clock
     would do for them, so the rule is made for hosts whose routines leave the clock alone but for
     stopping it.

  2. **The crux** is that a loop which succeeds has found the clock stopped or without events
     (`leaves_pass_loop`): it does not give up for any other reason.

  Main statement: starting a clock that is not running ends like its loop, but for the mark that it
  is running (`leaves_start`).
-/

namespace Ls8.Clock

variable {τ κ ω ε α β : Type}

/-- **Work leads from `P` to `Q`,** or it fails as `E` says. -/
def Leaves (P Q : Clock τ κ × ω → Prop) (E : Interruption ε → Clock τ κ × ω → Prop)
    (work : Work τ κ ω ε α) : Prop :=
  ∀ s, P s →
    match work s with
    | .ok _ t => Q t
    | .error i t => E i t

section Judgment
variable {P Q R : Clock τ κ × ω → Prop} {E : Interruption ε → Clock τ κ × ω → Prop}

theorem Leaves.of_ok {work : Work τ κ ω ε α} {s t : Clock τ κ × ω} {a : α}
    (h : Leaves P Q E work) (hs : P s) (heq : work s = .ok a t) : Q t := by
  have hleft := h s hs
  rwa [heq] at hleft

theorem Leaves.of_error {work : Work τ κ ω ε α} {s t : Clock τ κ × ω} {i : Interruption ε}
    (h : Leaves P Q E work) (hs : P s) (heq : work s = .error i t) : E i t := by
  have hleft := h s hs
  rwa [heq] at hleft

theorem Leaves.bind {x : Work τ κ ω ε α} {f : α → Work τ κ ω ε β} (hx : Leaves P Q E x)
    (hf : ∀ a, Leaves Q R E (f a)) : Leaves P R E (x >>= f) := by
  intro s hs
  show match EStateM.bind x f s with
    | .ok _ t => R t
    | .error i t => E i t
  rw [EStateM.bind]
  cases h : x s with
  | error i t => exact hx.of_error hs h
  | ok a t => exact hf a t (hx.of_ok hs h)

/-- Work that does not use the clock, but may fail. -/
theorem Leaves.of_concluded {work : Work τ κ ω ε Unit}
    (h : ∀ s, P s → ∃ failure t, work s = concluded failure t ∧ Q t ∧ ∀ i, E i t) :
    Leaves P Q E work := by
  intro s hs
  obtain ⟨failure, t, heq, hok, herror⟩ := h s hs
  rw [heq]
  cases failure with
  | none => exact hok
  | some reason => exact herror _

/-- Where work leads however it ends. -/
theorem Leaves.stateLeft {work : Work τ κ ω ε α} (h : Leaves P Q (fun _ => Q) work)
    {s : Clock τ κ × ω} (hs : P s) : Q (Clock.stateLeft (work s)) := by
  have hleft := h s hs
  revert hleft
  cases work s <;> exact id

end Judgment

/-- The clock is stopped or has no events. -/
def Finished (s : Clock τ κ × ω) : Prop := s.1.running = false ∨ s.1.events = .empty

theorem finished_iff {s : Clock τ κ × ω} :
    Finished s ↔ ¬ (s.1.running && !s.1.events.isEmpty) = true := by
  have hempty : s.1.events = .empty ↔ s.1.events.isEmpty = true := by
    cases s.1.events with
    | empty => exact ⟨fun _ => rfl, fun _ => rfl⟩
    | node l x r => exact ⟨by rintro ⟨⟩, by rintro ⟨⟩⟩
  rw [Finished, hempty]
  cases s.1.running <;> simp

variable [Add τ] [Zero τ] [LE τ] [LT τ] [DecidableLE τ] [DecidableLT τ]
variable {host : Host τ κ ω ε} {I : Clock τ κ × ω → Prop}
variable {E : Interruption ε → Clock τ κ × ω → Prop}

/-- **A host upholds an invariant:** each firing and each sleep leads back to it or fails as `E`
    says, and so does running out of fuel. -/
structure Host.Upholds (host : Host τ κ ω ε) (I : Clock τ κ × ω → Prop)
    (E : Interruption ε → Clock τ κ × ω → Prop) : Prop where
  fire : ∀ c w e rest now (pending : Work τ κ ω ε Nat) (started : Work τ κ ω ε Unit), I (c, w) →
    c.events.pop? Event.before = some (e, rest) →
    Leaves (· = (c.reschedule e rest now, w)) (fun s => I (s.1.countFiring, s.2)) E
      ((host.fire e.source.command).run host pending started)
  sleep : ∀ d (pending : Work τ κ ω ε Nat) (started : Work τ κ ω ε Unit),
    Leaves (fun s => I s ∧ s.1.running = true) I E ((host.sleep d).run host pending started)
  exhausted : ∀ s, I s → E .exhausted s

/-- Adding a source, and what follows if it is accepted. -/
theorem leaves_add {P Q R : Clock τ κ × ω → Prop} {source : Source τ κ} {next : Routine τ κ ω ε}
    {pending : Work τ κ ω ε Nat} {started : Work τ κ ω ε Unit}
    (haccepted : ∀ c d w, P (c, w) → c.add (host.now w) source = .ok d → Q (d, w))
    (hrefused : ∀ e s, P s → E (.refused e) s)
    (hnext : Leaves Q R E (next.run host pending started)) :
    Leaves P R E ((Routine.add source next).run host pending started) := by
  rintro ⟨c, w⟩ hs
  cases hadd : c.add (host.now w) source with
  | ok d =>
    rw [run_add_of_ok hadd]
    exact hnext (d, w) (haccepted c d w hs hadd)
  | error e =>
    rw [run_add_of_error hadd]
    exact hrefused e (c, w) hs

variable [Sub τ]

/-- **Passes and loops uphold what the host upholds,** and a loop that succeeds has found the clock
    stopped or without events. -/
theorem leaves_pass_loop (h : host.Upholds I E) (fuel : Nat) :
    (∀ now fired, Leaves I I E (pass host fuel now fired)) ∧
      Leaves I (fun s => I s ∧ Finished s) E (loop host fuel) := by
  induction fuel with
  | zero => exact ⟨fun now fired s hs => h.exhausted s hs, fun s hs => h.exhausted s hs⟩
  | succ fuel ih =>
    obtain ⟨hpass, hloop⟩ := ih
    have hnext (now fired) :
        Leaves (fun s => I (s.1.countFiring, s.2)) I E (passOn host fuel now fired) :=
      fun s hs => hpass now (fired + 1) (s.1.countFiring, s.2) hs
    have hturn : Leaves I (fun s => I s ∧ Finished s) E (turnOn host fuel) := by
      intro s hs
      rw [turnOn_eq]
      cases hdelay : s.1.delay? (host.now s.2) with
      | none =>
        -- without a next event there are no events at all
        have htop : s.1.events.top? = none := Option.map_eq_none_iff.mp hdelay
        exact ⟨hs, .inr (Heap.eq_empty_of_top? htop)⟩
      | some d =>
        simp only
        cases hrunning : s.1.running with
        | false =>
          rw [if_pos (show (!false) = true from rfl)]
          exact ⟨hs, .inl hrunning⟩
        | true =>
          rw [if_neg (show ¬ (!true) = true from Bool.false_ne_true)]
          by_cases hd : 0 < d
          · rw [if_pos hd]
            exact ((h.sleep d _ _).bind fun _ => hloop) s ⟨hs, hrunning⟩
          · rw [if_neg hd]
            exact hloop s hs
    constructor
    · rintro now fired ⟨c, w⟩ hs
      rw [pass_succ]
      cases hpop : c.events.pop? Event.before with
      | none => exact hs
      | some popped =>
        obtain ⟨e, rest⟩ := popped
        simp only
        by_cases hdue : e.due ≤ now
        · rw [if_pos hdue]
          exact ((h.fire c w e rest now _ _ hs hpop).bind fun _ => hnext now fired) _ rfl
        · rw [if_neg hdue]
          exact hs
    · rintro ⟨c, w⟩ hs
      rw [loop_succ]
      by_cases hgo : (c.running && !c.events.isEmpty) = true
      · rw [if_pos hgo]
        exact ((hpass (host.now w) 0).bind fun _ => hturn) (c, w) hs
      · rw [if_neg hgo]
        exact ⟨hs, finished_iff.mpr hgo⟩

/-- The same state of the world with the clock marked as not running. -/
def Idled (P : Clock τ κ × ω → Prop) (s : Clock τ κ × ω) : Prop :=
  ∃ running, P ({ s.1 with running }, s.2) ∧ s.1.running = false

/-- **Starting a clock** that is not running ends like its loop, with the clock not running. -/
theorem leaves_start (h : host.Upholds I E) (fuel : Nat) :
    Leaves (fun s => s.1.running = false ∧
        I ({ s.1 with running := true }, host.told (.started s.1.events.size) s.2))
      (Idled fun s => I s ∧ Finished s) (fun i => Idled (E i)) (start host fuel) := by
  rintro ⟨c, w⟩ ⟨hidle, hs⟩
  obtain ⟨_, hloop⟩ := leaves_pass_loop h fuel
  have hleft := hloop _ hs
  rw [start, startWith, if_neg (by simpa using hidle)]
  revert hleft
  cases loop host fuel ({ c with running := true }, host.told (.started c.events.size) w) with
  | ok u t => exact fun ht => ⟨t.1.running, ht, rfl⟩
  | error i t => exact fun ht => ⟨t.1.running, ht, rfl⟩

end Ls8.Clock
