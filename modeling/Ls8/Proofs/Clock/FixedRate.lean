import Ls8.Proofs.Clock.Punctual

/-
  Running a clock at fixed rates.

  Here time passes only when the host sleeps: a command takes no time, adds no source and does not
  fail, but it may read and write the world, run what is pending, start the clock and stop it
  (`Routine.Steady`); a sleep lasts exactly as long as it was asked to (`Routine.Lasts`).

  1. **Passes.**  Whatever commands do, work at one time leaves the clock on time.  It can only run
     out of fuel, and not before as many firings as were due (`PromptAt`).

  2. **Turns.**  A pass leaves nothing that is due, so the next turn comes after a sleep until the
     next firing, and makes at least one.

  3. **Runs.**  Hence a run follows the timetable as far as its fuel lasts, and with enough fuel it
     comes to any given firing, unless it is stopped (`keepsTimetable_addAll`).
-/

namespace Ls8.Clock

variable {κ ω ε α β : Type}

/-- Adds sources, the first one first. -/
def Routine.addAll (sources : List (Source ℚ κ)) (next : Routine ℚ κ ω ε) : Routine ℚ κ ω ε :=
  sources.foldr .add next

/-! ## Commands that take no time -/

/-- **A routine takes no time** from the world `w` on, adds no source and does not fail.  Whenever
    it gives up control, the world has the property `I`. -/
def Routine.Steady (host : Host ℚ κ ω ε) (I : ω → Prop) : Routine ℚ κ ω ε → ω → Prop
  | .done, w => I w
  | .fail _, _ => False
  | .read next, w => (next w).Steady host I w
  | .write v next, w => host.now v = host.now w ∧ next.Steady host I v
  | .add _ _, _ => False
  | .runPending next, w =>
    I w ∧ ∀ n v, I v → host.now v = host.now w → (next n).Steady host I v
  | .start next, w => I w ∧ ∀ v, I v → host.now v = host.now w → next.Steady host I v
  | .stop next, w => ∀ n, next.Steady host I (host.told (.stopped n) w)
  | .attempt part _ next, w =>
    part.Steady host I w ∧ ∀ v, I v → host.now v = host.now w → (next none).Steady host I v

/-- **A routine lasts** from the world `w` until a time, and does not use the clock. -/
def Routine.Lasts (host : Host ℚ κ ω ε) (I : ω → Prop) (t : ℚ) : Routine ℚ κ ω ε → ω → Prop
  | .done, w => I w ∧ host.now w = t
  | .read next, w => (next w).Lasts host I t w
  | .write v next, _ => next.Lasts host I t v
  | _, _ => False

/-- **A host in which only sleeps take time,** as long as the world has the property `I`. -/
structure Host.Steady (host : Host ℚ κ ω ε) (I : ω → Prop) : Prop where
  fire : ∀ k w, I w → (host.fire k).Steady host I w
  sleep : ∀ d w, 0 < d → I w → (host.sleep d).Lasts host I (host.now w + d) w
  told : ∀ n w, host.now (host.told n w) = host.now w
  started : ∀ n w, I w → I (host.told (.started n) w)

/-! ## Work at one time -/

section Prompt
variable (T : Timetable κ) (host : Host ℚ κ ω ε) (I : ω → Prop)

/-- **What work at the time `t` leaves** that began in state `s`: the clock is on time with these
    firings made, no more events are due than before, and if it did not succeed, its fuel ran out and
    was not more than there were events due. -/
structure Prompt (fuel : Nat) (t : ℚ) (s : Clock ℚ κ × Journaled ℚ κ ω) (firings : List (Firing T))
    (result : EStateM.Result (Interruption ε) (Clock ℚ κ × Journaled ℚ κ ω) α) : Prop where
  onTime : OnTime host t firings (stateLeft result).1 (stateLeft result).2.1
  time : host.now (stateLeft result).2.2 = t
  due_le : (stateLeft result).1.dueCount t ≤ s.1.dueCount t
  grows : s.2.1 <+: (stateLeft result).2.1
  ok : ∀ a s', result = .ok a s' → I s'.2.2
  error : ∀ i s', result = .error i s' → i = .exhausted ∧ fuel ≤ s.1.dueCount t

/-- **Work in a state is prompt:** at the time `t` it leaves a clock that is on time so, with the
    same firings made or more. -/
def PromptAt (fuel : Nat) (t : ℚ) (work : Work ℚ κ (Journaled ℚ κ ω) ε α)
    (s : Clock ℚ κ × Journaled ℚ κ ω) : Prop :=
  ∀ firings : List (Firing T), OnTime host t firings s.1 s.2.1 → host.now s.2.2 = t →
    ∃ more, Prompt T host I fuel t s (firings ++ more) (work s)

end Prompt

variable {T : Timetable κ} {host : Host ℚ κ ω ε} {I : ω → Prop} {fuel fuel' due due' : Nat} {t : ℚ}
variable {firings : List (Firing T)} {c : Clock ℚ κ} {s s' : Clock ℚ κ × Journaled ℚ κ ω}

/-- What was done before the work is part of it. -/
theorem Prompt.mono {result : EStateM.Result (Interruption ε) (Clock ℚ κ × Journaled ℚ κ ω) α}
    (h : Prompt T host I fuel t s' firings result) (hdue : s'.1.dueCount t ≤ s.1.dueCount t)
    (hgrows : s.2.1 <+: s'.2.1) (hfuel : fuel ≤ s'.1.dueCount t → fuel' ≤ s.1.dueCount t) :
    Prompt T host I fuel' t s firings result where
  onTime := h.onTime
  time := h.time
  due_le := h.due_le.trans hdue
  grows := hgrows.trans h.grows
  ok := h.ok
  error := by
    intro i s hresult
    obtain ⟨hi, hle⟩ := h.error i s hresult
    exact ⟨hi, hfuel hle⟩

/-- Work that succeeds at once. -/
theorem prompt_ok (a : α) (hon : OnTime host t firings s.1 s.2.1) (ht : host.now s.2.2 = t)
    (hI : I s.2.2) : Prompt T host I fuel t s firings (.ok a s) where
  onTime := hon
  time := ht
  due_le := le_rfl
  grows := List.prefix_rfl
  ok := by
    rintro _ _ ⟨⟩
    exact hI
  error := by
    rintro _ _ ⟨⟩

/-- Work that has no fuel. -/
theorem prompt_exhausted (hon : OnTime host t firings s.1 s.2.1) (ht : host.now s.2.2 = t) :
    Prompt (α := α) T host I 0 t s firings (.error .exhausted s) where
  onTime := hon
  time := ht
  due_le := le_rfl
  grows := List.prefix_rfl
  ok := by
    rintro _ _ ⟨⟩
  error := by
    rintro _ _ ⟨⟩
    exact ⟨rfl, Nat.zero_le _⟩

theorem PromptAt.bind {x : Work ℚ κ (Journaled ℚ κ ω) ε α}
    {f : α → Work ℚ κ (Journaled ℚ κ ω) ε β} (hx : PromptAt T host I fuel t x s)
    (hf : ∀ a s', I s'.2.2 → host.now s'.2.2 = t → s.2.1 <+: s'.2.1 →
      PromptAt T host I fuel t (f a) s') :
    PromptAt T host I fuel t (x >>= f) s := by
  intro firings hon ht
  obtain ⟨more, hfirst⟩ := hx firings hon ht
  show ∃ more, Prompt T host I fuel t s (firings ++ more) (EStateM.bind x f s)
  rw [EStateM.bind]
  cases h : x s with
  | ok a s' =>
    rw [h] at hfirst
    obtain ⟨more', hnext⟩ := hf a s' (hfirst.ok a s' rfl) hfirst.time hfirst.grows _ hfirst.onTime
      hfirst.time
    refine ⟨more ++ more', ?_⟩
    rw [← List.append_assoc]
    exact hnext.mono hfirst.due_le hfirst.grows fun hle => hle.trans hfirst.due_le
  | error i s' =>
    rw [h] at hfirst
    refine ⟨more, hfirst.onTime, hfirst.time, hfirst.due_le, hfirst.grows, ?_, ?_⟩
    · rintro _ _ ⟨⟩
    · rintro _ _ ⟨⟩
      exact hfirst.error i s' rfl

/-- Work a part of which may fail and be caught.  Prompt work runs out of fuel at most, which nobody
    catches. -/
theorem PromptAt.attempted (catches : Interruption ε → Bool)
    {x : Work ℚ κ (Journaled ℚ κ ω) ε Unit}
    (f : Option (Interruption ε) → Work ℚ κ (Journaled ℚ κ ω) ε Unit)
    (hx : PromptAt T host I fuel t x s)
    (hf : ∀ s', I s'.2.2 → host.now s'.2.2 = t → s.2.1 <+: s'.2.1 →
      PromptAt T host I fuel t (f none) s') :
    PromptAt T host I fuel t (Clock.attempted catches x f) s := by
  intro firings hon ht
  obtain ⟨more, hbound⟩ := (hx.bind fun _ => hf) firings hon ht
  obtain ⟨first, hfirst⟩ := hx firings hon ht
  have heq : Clock.attempted catches x f s = (x >>= fun _ => f none) s := by
    show _ = EStateM.bind x (fun _ => f none) s
    rw [Clock.attempted, EStateM.bind]
    cases h : x s with
    | ok _ s' => rfl
    | error i s' =>
      obtain ⟨rfl, _⟩ := hfirst.error i s' h
      rfl
  rw [heq]
  exact ⟨more, hbound⟩

/-! ## Routines -/

/-- **A routine that takes no time** is prompt, if whatever it has the clock do is.  It may stop the
    clock if a command has been fired that may. -/
theorem promptAt_routine (hsteady : host.Steady I)
    {pending : Work ℚ κ (Journaled ℚ κ ω) ε Nat} {started : Work ℚ κ (Journaled ℚ κ ω) ε Unit}
    (hpending : ∀ s, I s.2.2 → PromptAt T host I fuel t pending s)
    (hstarted : ∀ s, I s.2.2 → PromptAt T host I fuel t started s) (r : Routine ℚ κ ω ε) :
    ∀ c journal w, r.Steady host I w → (r.MayStop w → MayBeStopped host journal) →
      PromptAt T host I fuel t (r.journaled.run host.journaled pending started)
        (c, (journal, w)) := by
  induction r with
  | done =>
    intro c journal w hr _ firings hon ht
    rw [← List.append_nil firings] at hon
    exact ⟨[], prompt_ok () hon ht hr⟩
  | fail reason => exact fun c journal w hr => hr.elim
  | read next ih =>
    intro c journal w hr hstop
    exact ih w c journal w hr hstop
  | write v next ih =>
    intro c journal w hr hstop firings hon ht
    obtain ⟨more, hnext⟩ := ih c journal v hr.2 hstop firings hon (hr.1.trans ht)
    exact ⟨more, hnext.mono le_rfl List.prefix_rfl id⟩
  | add source next ih => exact fun c journal w hr => hr.elim
  | runPending next ih =>
    intro c journal w hr hstop firings hon ht
    refine PromptAt.bind (hpending (c, (journal, w)) hr.1) ?_ firings hon ht
    rintro n ⟨c', journal', w'⟩ hI' ht' hgrows
    exact ih n c' journal' w' (hr.2 n w' hI' (ht'.trans ht.symm)) fun hmay =>
      (hstop ⟨n, w', hmay⟩).mono hgrows
  | start next ih =>
    intro c journal w hr hstop firings hon ht
    refine PromptAt.bind (hstarted (c, (journal, w)) hr.1) ?_ firings hon ht
    rintro _ ⟨c', journal', w'⟩ hI' ht' hgrows
    exact ih c' journal' w' (hr.2 w' hI' (ht'.trans ht.symm)) fun hmay =>
      (hstop ⟨w', hmay⟩).mono hgrows
  | stop next ih =>
    intro c journal w hr hstop firings hon ht
    have hmay : MayBeStopped host journal := hstop trivial
    have hgrows : journal <+: journal ++ [.told (.stopped c.dispatched) w] := List.prefix_append _ _
    obtain ⟨more, hnext⟩ := ih c.stop (journal ++ [.told (.stopped c.dispatched) w])
      (host.told (.stopped c.dispatched) w) (hr c.dispatched) (fun _ => hmay.mono hgrows)
      firings (hon.stop hmay c.dispatched w) ((hsteady.told _ _).trans ht)
    exact ⟨more, hnext.mono (Nat.zero_le _) hgrows fun hle => hle.trans (Nat.zero_le _)⟩
  | attempt part catches next ihpart ihnext =>
    intro c journal w hr hstop firings hon ht
    have hpart := ihpart c journal w hr.1 fun hmay => hstop (.inl hmay)
    refine PromptAt.attempted catches
      (fun caught => (next caught).journaled.run host.journaled pending started) hpart ?_ firings hon ht
    rintro ⟨c', journal', w'⟩ hI' ht' hgrows
    exact ihnext none c' journal' w' (hr.2 w' hI' (ht'.trans ht.symm)) fun hmay =>
      (hstop (.inr ⟨none, w', hmay⟩)).mono hgrows

/-- A routine that lasts ends at that time, and leaves the clock and the journal. -/
theorem run_of_lasts (pending : Work ℚ κ (Journaled ℚ κ ω) ε Nat)
    (started : Work ℚ κ (Journaled ℚ κ ω) ε Unit) (r : Routine ℚ κ ω ε) (c : Clock ℚ κ)
    (journal : Journal ℚ κ ω) : ∀ w, r.Lasts host I t w →
      ∃ v, r.journaled.run host.journaled pending started (c, (journal, w)) =
        .ok () (c, (journal, v)) ∧ I v ∧ host.now v = t := by
  induction r with
  | done => exact fun w hr => ⟨w, rfl, hr⟩
  | read next ih => exact fun w hr => ih w w hr
  | write v next ih => exact fun w hr => ih v hr
  | fail | add | runPending | start | stop | attempt => exact fun w hr => hr.elim

/-! ## Passes -/

/-- A pass that succeeds leaves nothing that is due. -/
theorem not_due_of_pass {τ : Type} [Add τ] [Sub τ] [Zero τ] [LE τ] [LT τ] [DecidableLE τ]
    [DecidableLT τ] {host : Host τ κ ω ε} {fuel fired n : Nat} {now : τ} {s s' : Clock τ κ × ω}
    (h : pass host fuel now fired s = .ok n s') {e : Event τ κ} (htop : s'.1.events.top? = some e) :
    ¬ e.due ≤ now := by
  induction fuel generalizing fired s with
  | zero => cases h
  | succ fuel ih =>
    rw [pass_succ] at h
    split at h
    · rename_i hpop
      obtain ⟨_, rfl⟩ := EStateM.Result.ok.inj h
      rw [Heap.pop?_eq_none_iff.mp hpop] at htop
      cases htop
    · rename_i e' rest hpop
      split at h
      · have hbind : EStateM.bind _ (fun _ => passOn host fuel now fired) _ = .ok n s' := h
        rw [EStateM.bind] at hbind
        split at hbind
        · exact ih hbind
        · cases hbind
      · rename_i hlater
        obtain ⟨_, rfl⟩ := EStateM.Result.ok.inj h
        obtain rfl : e' = e := Option.some.inj ((Heap.top?_of_pop? hpop).symm.trans htop)
        exact hlater

/-- **Starting a clock that is on time** does nothing: it is running, or it has no events. -/
theorem promptAt_start (hsteady : host.Steady I) (fuel : Nat) (hI : I s.2.2) :
    PromptAt T host I fuel t (start host.journaled fuel) s := by
  obtain ⟨c, journal, w⟩ := s
  intro firings hon ht
  refine ⟨[], ?_⟩
  rw [List.append_nil]
  have hI : I w := hI
  rw [start, startWith]
  rcases hon.state with hrunning | hover
  · -- a clock that is running is not started again
    rw [if_pos hrunning.running]
    exact prompt_ok () hon ht hI
  · -- after a stop the loop finds no events
    have hidle : c.running = false := hover.running
    rw [if_neg (by simp [hidle])]
    obtain ⟨events, sequence, running, dispatched⟩ := c
    obtain rfl : events = .empty := hover.events
    have htold := hon.idle (x := .told (.started 0) w) rfl rfl
    have hon' : OnTime host t firings ⟨.empty, sequence, false, dispatched⟩ _ :=
      htold.congr hidle.symm rfl rfl
    have ht' := (hsteady.told (.started 0) w).trans ht
    have hgrows : journal <+: journal ++ [.told (.started 0) w] := List.prefix_append _ _
    cases fuel with
    | zero =>
      exact Prompt.mono (prompt_exhausted (s := (_, (_, _))) hon' ht') le_rfl hgrows id
    | succ fuel =>
      rw [loop_succ, if_neg (by simp [Heap.isEmpty])]
      exact Prompt.mono (prompt_ok () (s := (_, (_, _))) hon' ht' (hsteady.started 0 w hI)) le_rfl
        hgrows id

/-- **A pass that finds something due** makes at least one firing, if passes with less fuel are
    prompt. -/
theorem exists_prompt_of_due (hsteady : host.Steady I)
    (hless : ∀ fired s, I s.2.2 → PromptAt T host I fuel t (pass host.journaled fuel t fired) s)
    (fired : Nat) {journal : Journal ℚ κ ω} {w : ω} (hI : I w)
    (hon : OnTime host t firings c journal) (ht : host.now w = t) {e : Event ℚ κ}
    {rest : Heap (Event ℚ κ)} (hpop : c.events.pop? Event.before = some (e, rest))
    (hdue : e.due ≤ t) :
    ∃ f more, Prompt T host I (fuel + 1) t (c, (journal, w)) (firings ++ f :: more)
      (pass host.journaled (fuel + 1) t fired (c, (journal, w))) := by
  have hpending : ∀ s, I s.2.2 → PromptAt T host I fuel t (runPending host.journaled fuel) s := by
    intro s hs firings hon ht
    have hnow : host.journaled.now s.2 = t := ht
    rw [runPending, hnow]
    exact hless 0 s hs firings hon ht
  have hnext : ∀ s, I s.2.2 → PromptAt T host I fuel t (passOn host.journaled fuel t fired) s := by
    intro s hs firings hon ht
    obtain ⟨more, hrest⟩ :=
      hless (fired + 1) (s.1.countFiring, s.2) hs firings (hon.congr rfl rfl rfl) ht
    exact ⟨more, hrest.mono le_rfl List.prefix_rfl id⟩
  have hstarted : ∀ s, I s.2.2 → PromptAt T host I fuel t (start host.journaled fuel) s :=
    fun s hs => promptAt_start hsteady fuel hs
  -- the firing, then its command, then the rest of the pass
  obtain ⟨⟨f, hfired⟩, hcount⟩ := hon.fire hpop hdue ht
  have hgrows : journal <+: journal ++ [.fired e.source.command w] := List.prefix_append _ _
  have hrun := promptAt_routine hsteady hpending hstarted _ (c.reschedule e rest t)
    (journal ++ [.fired e.source.command w]) w (hsteady.fire e.source.command w hI) fun hmay =>
      ⟨e.source.command, w, List.mem_append_right _ List.mem_cons_self, hmay⟩
  obtain ⟨more, hprompt⟩ := hrun.bind (fun _ s hs _ _ => hnext s hs) _ hfired ht
  refine ⟨f, more, ?_⟩
  rw [pass_succ, hpop]
  simp only [if_pos hdue]
  rw [← List.append_cons] at hprompt
  exact hprompt.mono (hcount ▸ Nat.le_succ _) hgrows fun hle => hcount ▸ Nat.succ_le_succ hle

/-- **A pass is prompt.** -/
theorem promptAt_pass (hsteady : host.Steady I) (fuel : Nat) (t : ℚ) (fired : Nat)
    (s : Clock ℚ κ × Journaled ℚ κ ω) (hI : I s.2.2) :
    PromptAt T host I fuel t (pass host.journaled fuel t fired) s := by
  induction fuel generalizing fired s with
  | zero =>
    intro firings hon ht
    rw [← List.append_nil firings] at hon
    exact ⟨[], prompt_exhausted hon ht⟩
  | succ fuel ih =>
    obtain ⟨c, journal, w⟩ := s
    intro firings hon ht
    by_cases hfirst : ∃ e rest, c.events.pop? Event.before = some (e, rest) ∧ e.due ≤ t
    · obtain ⟨e, rest, hpop, hdue⟩ := hfirst
      obtain ⟨f, more, hprompt⟩ := exists_prompt_of_due hsteady ih fired hI hon ht hpop hdue
      exact ⟨f :: more, hprompt⟩
    · refine ⟨[], ?_⟩
      rw [List.append_nil, pass_succ]
      split
      · exact prompt_ok fired hon ht hI
      · rename_i e rest hpop
        rw [if_neg fun hdue => hfirst ⟨e, rest, hpop, hdue⟩]
        exact prompt_ok fired hon ht hI

/-- A pass that succeeds where something is due makes a firing. -/
theorem exists_prompt_pass (hsteady : host.Steady I) (fuel : Nat) {journal : Journal ℚ κ ω} {w : ω}
    (hI : I w) (hon : OnTime host t firings c journal) (ht : host.now w = t) :
    ∃ more, Prompt T host I fuel t (c, (journal, w)) (firings ++ more)
        (pass host.journaled fuel t 0 (c, (journal, w))) ∧
      ∀ n s, pass host.journaled fuel t 0 (c, (journal, w)) = .ok n s →
        min 1 (c.dueCount t) ≤ more.length := by
  by_cases hcount : 0 < c.dueCount t
  · cases fuel with
    | zero =>
      obtain ⟨more, hprompt⟩ := promptAt_pass hsteady 0 t 0 (c, (journal, w)) hI firings hon ht
      refine ⟨more, hprompt, ?_⟩
      rintro n s ⟨⟩
    | succ fuel =>
      obtain ⟨e, rest, hpop, hdue⟩ := hon.due_of_dueCount hcount
      obtain ⟨f, more, hprompt⟩ := exists_prompt_of_due hsteady (promptAt_pass hsteady fuel t) 0 hI
        hon ht hpop hdue
      refine ⟨f :: more, hprompt, fun n s _ => ?_⟩
      rw [List.length_cons]
      omega
  · obtain ⟨more, hprompt⟩ := promptAt_pass hsteady fuel t 0 (c, (journal, w)) hI firings hon ht
    exact ⟨more, hprompt, fun n s _ => by omega⟩

/-! ## Turns -/

/-- What a turn does after its pass while the clock is running: it sleeps until the first event. -/
theorem turnOn_of_top? {τ : Type} [Add τ] [Sub τ] [Zero τ] [LE τ] [LT τ] [DecidableLE τ]
    [DecidableLT τ] {host : Host τ κ ω ε} {fuel : Nat} {s : Clock τ κ × ω} {e : Event τ κ}
    (hrun : s.1.running = true) (htop : s.1.events.top? = some e)
    (hpos : 0 < e.due - host.now s.2) :
    turnOn host fuel s = ((host.sleep (e.due - host.now s.2)).run host (runPending host fuel)
      (start host fuel) >>= fun _ => loop host fuel) s := by
  have hdelay : s.1.delay? (host.now s.2) = some (e.due - host.now s.2) := by
    rw [delay?, htop]
    rfl
  rw [turnOn_eq, hdelay]
  simp only [hrun, hpos, if_true, Bool.not_true, Bool.false_eq_true, if_false]

/-- **What a loop leaves** that began with these firings made: the clock is on time with more firings
    made.  It succeeds without events; otherwise its fuel ran out, and then it made almost as many
    firings as it had fuel. -/
structure LoopEnd (host : Host ℚ κ ω ε) (fuel due : Nat) (firings more : List (Firing T))
    (result : EStateM.Result (Interruption ε) (Clock ℚ κ × Journaled ℚ κ ω) Unit) : Prop where
  onTime : ∃ t, OnTime host t (firings ++ more) (stateLeft result).1 (stateLeft result).2.1
  ok : ∀ s, result = .ok () s → s.1.events = .empty
  error : ∀ i s, result = .error i s →
    i = .exhausted ∧ fuel + min 1 due ≤ more.length + T.sources.length + 2

/-- A loop that ends without events. -/
theorem loopEnd_ok (hon : OnTime host t firings s.1 s.2.1) (hempty : s.1.events = .empty) :
    LoopEnd host fuel due firings [] (.ok () s) where
  onTime := by
    rw [List.append_nil]
    exact ⟨t, hon⟩
  ok := by
    rintro _ ⟨⟩
    exact hempty
  error := by
    rintro _ _ ⟨⟩

/-- A loop that ends without fuel. -/
theorem loopEnd_exhausted {more : List (Firing T)}
    (hon : OnTime host t (firings ++ more) s.1 s.2.1)
    (hle : fuel + min 1 due ≤ more.length + T.sources.length + 2) :
    LoopEnd host fuel due firings more (.error .exhausted s) where
  onTime := ⟨t, hon⟩
  ok := by
    rintro _ ⟨⟩
  error := by
    rintro _ _ ⟨⟩
    exact ⟨rfl, hle⟩

/-- Firings before a loop. -/
theorem LoopEnd.extend {more more' : List (Firing T)}
    {result : EStateM.Result (Interruption ε) (Clock ℚ κ × Journaled ℚ κ ω) Unit}
    (h : LoopEnd host fuel due (firings ++ more) more' result)
    (hle : fuel' + min 1 due' ≤ more.length + (fuel + min 1 due)) :
    LoopEnd host fuel' due' firings (more ++ more') result where
  onTime := by
    rw [← List.append_assoc]
    exact h.onTime
  ok := h.ok
  error := by
    intro i s hresult
    obtain ⟨hi, hbound⟩ := h.error i s hresult
    rw [List.length_append]
    exact ⟨hi, by omega⟩

/-- **A sleep until the first event:** the next turn finds it due. -/
theorem exists_turnOn_eq_loop (hsteady : host.Steady I) (fuel : Nat) {journal : Journal ℚ κ ω}
    {w : ω} (hI : I w) (hon : OnTime host t firings c journal) (ht : host.now w = t)
    {e : Event ℚ κ} (htop : c.events.top? = some e) (hlater : t < e.due) :
    ∃ v, turnOn host.journaled fuel (c, (journal, w)) =
        loop host.journaled fuel (c, (journal ++ [.slept (e.due - t) w], v)) ∧
      I v ∧ host.now v = e.due := by
  have hnow : host.journaled.now (journal, w) = t := ht
  have hpos : 0 < e.due - t := by linarith
  have hlasts := hsteady.sleep (e.due - t) w hpos hI
  rw [ht, add_sub_cancel] at hlasts
  obtain ⟨v, hsleep, hI', ht'⟩ := run_of_lasts (runPending host.journaled fuel)
    (start host.journaled fuel) _ c (journal ++ [.slept (e.due - t) w]) w hlasts
  refine ⟨v, ?_, hI', ht'⟩
  rw [turnOn_of_top? (hon.running_of_top? htop) htop (by rwa [hnow]), hnow]
  show EStateM.bind ((host.sleep (e.due - t)).journaled.run host.journaled _ _) _
    (c, (journal ++ [.slept (e.due - t) w], w)) = _
  rw [EStateM.bind, hsleep]

/-- A turn leaves what the next turns do, if they come after a sleep. -/
theorem loopEnd_turnOn (hsteady : host.Steady I)
    (hloop : ∀ t (firings : List (Firing T)) (s : Clock ℚ κ × Journaled ℚ κ ω), I s.2.2 →
      OnTime host t firings s.1 s.2.1 → host.now s.2.2 = t →
      ∃ more, LoopEnd host fuel (s.1.dueCount t) firings more (loop host.journaled fuel s))
    (hI : I s.2.2) (hon : OnTime host t firings s.1 s.2.1) (ht : host.now s.2.2 = t)
    (hlater : ∀ e, s.1.events.top? = some e → ¬ e.due ≤ t) :
    ∃ more, LoopEnd host fuel 1 firings more (turnOn host.journaled fuel s) := by
  obtain ⟨c, journal, w⟩ := s
  have hon : OnTime host t firings c journal := hon
  cases htop : c.events.top? with
  | none =>
    have hdelay : c.delay? (host.journaled.now (journal, w)) = none := by
      rw [delay?, htop]
      rfl
    rw [turnOn_eq, hdelay]
    exact ⟨[], loopEnd_ok hon (Heap.eq_empty_of_top? htop)⟩
  | some e =>
    have hlt : t < e.due := not_le.mp (hlater e htop)
    obtain ⟨hslept, hcount⟩ := hon.sleep htop hlt ht
    obtain ⟨v, hturn, hI', ht'⟩ := exists_turnOn_eq_loop hsteady fuel hI hon ht htop hlt
    obtain ⟨more, hend⟩ := hloop e.due firings (c, (journal ++ [.slept (e.due - t) w], v)) hI'
      hslept ht'
    rw [hturn]
    rw [← List.append_nil firings] at hend
    refine ⟨more, hend.extend ?_⟩
    show fuel + min 1 1 ≤ 0 + (fuel + min 1 (c.dueCount e.due))
    omega

/-- **The loop** keeps the clock on time, by induction on the fuel. -/
theorem loopEnd_loop (hsteady : host.Steady I) (fuel : Nat) (t : ℚ) (firings : List (Firing T))
    (s : Clock ℚ κ × Journaled ℚ κ ω) (hI : I s.2.2)
    (hon : OnTime host t firings s.1 s.2.1) (ht : host.now s.2.2 = t) :
    ∃ more, LoopEnd host fuel (s.1.dueCount t) firings more (loop host.journaled fuel s) := by
  induction fuel generalizing t firings s with
  | zero =>
    rw [← List.append_nil firings] at hon
    exact ⟨[], loopEnd_exhausted hon (by omega)⟩
  | succ fuel ih =>
    obtain ⟨c, journal, w⟩ := s
    have hon : OnTime host t firings c journal := hon
    have hnow : host.journaled.now (journal, w) = t := ht
    rw [loop_succ, hnow]
    split
    · -- a turn: its pass runs out of fuel, or the rest of the turn follows
      obtain ⟨more, hpass, hfires⟩ := exists_prompt_pass hsteady fuel hI hon ht
      show ∃ more, LoopEnd host (fuel + 1) (c.dueCount t) firings more
        (EStateM.bind (pass host.journaled fuel t 0) _ (c, (journal, w)))
      rw [EStateM.bind]
      cases hresult : pass host.journaled fuel t 0 (c, (journal, w)) with
      | error i s =>
        rw [hresult] at hpass
        have hdue := hon.dueCount_le
        obtain ⟨rfl, hle⟩ := hpass.error i s rfl
        have hle : fuel ≤ c.dueCount t := hle
        exact ⟨more, loopEnd_exhausted hpass.onTime (by omega)⟩
      | ok n s =>
        rw [hresult] at hpass
        have hmin := hfires n s hresult
        obtain ⟨more', hend⟩ := loopEnd_turnOn hsteady ih (hpass.ok n s rfl) hpass.onTime hpass.time
          fun e htop => not_due_of_pass hresult htop
        exact ⟨more ++ more', hend.extend (by omega)⟩
    · -- the clock is not running, or it has no events
      rename_i hstop
      refine ⟨[], loopEnd_ok hon ?_⟩
      cases htop : c.events.top? with
      | none => exact Heap.eq_empty_of_top? htop
      | some e =>
        have hrun : c.running = true := hon.running_of_top? htop
        show c.events = .empty
        cases hevents : c.events with
        | empty => rfl
        | node l x r => simp [hrun, hevents, Heap.isEmpty] at hstop

/-! ## Runs -/

/-- What a routine leaves that keeps a journal from now on, which changes nothing else
    (`projects_performJournaled`). -/
def outcome (host : Host ℚ κ ω ε) (routine : Routine ℚ κ ω ε) (c : Clock ℚ κ) (w : ω) (fuel : Nat) :
    EStateM.Result (Interruption ε) (Clock ℚ κ × Journaled ℚ κ ω) Unit :=
  performJournaled host fuel routine (c, ([], w))

/-- **A routine keeps a timetable:** what happens follows it, whatever the fuel.  The routine succeeds
    only without sources or after the clock was stopped, and otherwise its fuel runs out.  With
    enough fuel it comes to any given firing, or succeeds before. -/
structure KeepsTimetable (T : Timetable κ) (host : Host ℚ κ ω ε) (routine : Routine ℚ κ ω ε)
    (c : Clock ℚ κ) (w : ω) : Prop where
  follows : ∀ fuel, ∃ firings : List (Firing T),
    Follows host (stateLeft (outcome host routine c w fuel)).2.1 firings
  ok : ∀ fuel s, outcome host routine c w fuel = .ok () s →
    s.1.running = false ∧ s.1.events = .empty ∧
      (T.sources = [] ∨ ∃ x ∈ s.2.1, x.isStop = true)
  error : ∀ fuel i s, outcome host routine c w fuel = .error i s → i = .exhausted
  reaches : ∀ f : Firing T, ∃ enough, ∀ fuel, enough ≤ fuel →
    (∃ firings, Follows host (stateLeft (outcome host routine c w fuel)).2.1 firings ∧
      f ∈ firings) ∨
    ∃ s, outcome host routine c w fuel = .ok () s

/-- What a routine keeps depends on what it leaves only. -/
theorem KeepsTimetable.congr {routine routine' : Routine ℚ κ ω ε} {w : ω}
    (hsame : outcome host routine c w = outcome host routine' c w)
    (h : KeepsTimetable T host routine' c w) : KeepsTimetable T host routine c w := by
  obtain ⟨hfollows, hok, herror, hreaches⟩ := h
  rw [← hsame] at hfollows hok herror hreaches
  exact ⟨hfollows, hok, herror, hreaches⟩

/-- Adding sources with positive intervals schedules all of them. -/
theorem run_addAll {pending : Work ℚ κ (Journaled ℚ κ ω) ε Nat}
    {started : Work ℚ κ (Journaled ℚ κ ω) ε Unit} {sources : List (Source ℚ κ)}
    (hpos : ∀ s ∈ sources, 0 < s.interval) (next : Routine ℚ κ ω ε) (c : Clock ℚ κ)
    (journal : Journal ℚ κ ω) (w : ω) :
    (Routine.addAll sources next).journaled.run host.journaled pending started (c, (journal, w)) =
      next.journaled.run host.journaled pending started
        (c.scheduleAll (host.now w) sources, (journal ++ sources.map (.added · w), w)) := by
  induction sources generalizing c journal with
  | nil =>
    rw [List.map_nil, List.append_nil]
    rfl
  | cons source rest ih =>
    have hsource : ¬ source.interval ≤ 0 := not_le.mpr (hpos source List.mem_cons_self)
    have hadd : c.add (host.journaled.now (journal, w)) source =
        .ok (c.schedule source (host.now w + source.interval)) := by
      rw [Clock.add, if_neg hsource]
      rfl
    have hrest := ih (fun s hs => hpos s (List.mem_cons_of_mem source hs))
      (c.schedule source (host.now w + source.interval)) (journal ++ [.added source w])
    rw [List.append_assoc] at hrest
    exact (run_add_of_ok hadd).trans hrest

/-- The state in which the loop begins when sources are added and the clock is started. -/
def begun (T : Timetable κ) (host : Host ℚ κ ω ε) (c : Clock ℚ κ) (w : ω) :
    Clock ℚ κ × Journaled ℚ κ ω :=
  let added := c.scheduleAll T.origin T.sources
  ({ added with running := true },
    host.journaled.told (.started added.events.size) (T.sources.map (.added · w), w))

/-- The clock is marked as not running at the end. -/
def ended (s : Clock ℚ κ × Journaled ℚ κ ω) : Clock ℚ κ × Journaled ℚ κ ω :=
  ({ s.1 with running := false }, s.2)

theorem outcome_addAll (hidle : c.running = false) {w : ω} (hw : host.now w = T.origin)
    (fuel : Nat) : outcome host (.addAll T.sources (.start .done)) c w fuel =
      match loop host.journaled fuel (begun T host c w) with
      | .ok _ s => .ok () (ended s)
      | .error i s => .error i (ended s) := by
  have hadded : (c.scheduleAll T.origin T.sources).running = false :=
    running_scheduleAll.trans hidle
  rw [outcome, performJournaled, perform, run_addAll T.positive, hw]
  show EStateM.bind (start host.journaled fuel) _ _ = _
  rw [EStateM.bind, start, startWith, List.nil_append, if_neg (by simp [hadded])]
  have hbegun : ({ c.scheduleAll T.origin T.sources with running := true },
      host.journaled.told (.started (c.scheduleAll T.origin T.sources).events.size)
        (T.sources.map (.added · w), w)) = begun T host c w := rfl
  rw [hbegun]
  cases loop host.journaled fuel (begun T host c w) <;> rfl

/-- **What a run leaves:** it has followed the timetable, it has succeeded only without sources or
    after a stop, and otherwise it has made almost as many firings as it had fuel. -/
theorem exists_outcome (hsteady : host.Steady I) (T : Timetable κ) (hidle : c.running = false)
    (hempty : c.events = .empty) {w : ω} (hI : I w) (hw : host.now w = T.origin) (fuel : Nat) :
    let result := outcome host (.addAll T.sources (.start .done)) c w fuel
    ∃ firings : List (Firing T), Follows host (stateLeft result).2.1 firings ∧
      (∀ s, result = .ok () s → s.1.running = false ∧ s.1.events = .empty ∧
        (T.sources = [] ∨ ∃ x ∈ s.2.1, x.isStop = true)) ∧
      ∀ i s, result = .error i s →
        i = .exhausted ∧ fuel ≤ firings.length + T.sources.length + 2 := by
  intro result
  -- the journal begins with the additions and the start
  have hon : OnTime (T := T) host T.origin [] (begun T host c w).1 (begun T host c w).2.1 := by
    refine OnTime.of_scheduleAll hempty fun x hx => ?_
    rcases List.mem_append.mp hx with hx | hx
    · obtain ⟨source, _, rfl⟩ := List.mem_map.mp hx
      exact ⟨rfl, rfl⟩
    · rw [List.mem_singleton.mp hx]
      exact ⟨rfl, rfl⟩
  obtain ⟨firings, ⟨t, hon'⟩, hok, herror⟩ := loopEnd_loop hsteady fuel T.origin []
    (begun T host c w) (hsteady.started _ w hI) hon ((hsteady.told _ w).trans hw)
  have hresult : result = _ := outcome_addAll hidle hw fuel
  rw [hresult]
  cases hloop : loop host.journaled fuel (begun T host c w) with
  | ok _ s =>
    rw [hloop] at hon'
    have hnone := hok s hloop
    refine ⟨firings, hon'.follows, ?_, ?_⟩
    · rintro _ ⟨⟩
      exact ⟨rfl, hnone, hon'.stopped_of_empty hnone⟩
    · rintro _ _ ⟨⟩
  | error i s =>
    rw [hloop] at hon'
    obtain ⟨hi, hle⟩ := herror i s hloop
    refine ⟨firings, hon'.follows, ?_, ?_⟩
    · rintro _ ⟨⟩
    · rintro _ _ ⟨⟩
      exact ⟨hi, by omega⟩

/-- **Starting a clock at fixed rates.**  If sources with positive intervals are added to a clock
    that is not running and has no events, and the clock is started at that time, in a host in which
    only sleeps take time, it keeps the timetable of the sources. -/
theorem keepsTimetable_addAll (hsteady : host.Steady I) (T : Timetable κ)
    (hidle : c.running = false) (hempty : c.events = .empty) {w : ω} (hI : I w)
    (hw : host.now w = T.origin) :
    KeepsTimetable T host (.addAll T.sources (.start .done)) c w := by
  have hend := exists_outcome hsteady T hidle hempty hI hw
  constructor
  · intro fuel
    obtain ⟨firings, hfollows, _, _⟩ := hend fuel
    exact ⟨firings, hfollows⟩
  · intro fuel s hs
    obtain ⟨_, _, hok, _⟩ := hend fuel
    exact hok s hs
  · intro fuel i s hs
    obtain ⟨_, _, _, herror⟩ := hend fuel
    exact (herror i s hs).1
  · intro f
    obtain ⟨bound, hbound⟩ := Timetable.exists_bound f
    refine ⟨bound + T.sources.length + 3, fun fuel hfuel => ?_⟩
    obtain ⟨firings, hfollows, _, herror⟩ := hend fuel
    cases hresult : outcome host (.addAll T.sources (.start .done)) c w fuel with
    | ok _ s => exact .inr ⟨s, rfl⟩
    | error i s =>
      -- so much fuel has made more firings than there are up to `f`
      rw [hresult] at hfollows
      have hlong := (herror i s hresult).2
      exact .inl ⟨firings, hfollows, hbound firings hfollows.initial (by omega)⟩

/-- Sources with the intervals 2 and 3, until the fuel runs out: at the time 6 both are due. -/
example :
    let host : Host ℚ Char ℚ Empty := {
      now := id
      fire := fun _ => .done
      sleep := fun d => .read fun now => .write (now + d) .done
      told := fun _ now => now }
    let sources := [⟨"two", 2, 'a'⟩, ⟨"three", 3, 'b'⟩]
    Journal.firings id (stateLeft (outcome host (.addAll sources (.start .done)) {} 0 7)).2.1 =
      [('a', 2), ('b', 3), ('a', 4), ('b', 6), ('a', 6)] := by
  decide +kernel

end Ls8.Clock
