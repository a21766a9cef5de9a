import Ls8.Proofs.StepFailure
import Ls8.Proofs.TableRefinement

/-
  What stops the clock from inside a tick, and what makes a tick fail.

  1. **Requests.**  A host makes its requests in order, and the first that cannot be met ends them.
     So a request takes effect exactly if all before it can be met (`Request.Reached`).

  2. **Halting.**  Without a fault only the halt instruction halts; the entry of an interrupt never
     does.  Whatever halts the processor stops the clock in the same tick (`stop_of_halted`).

  3. **The host** is asked by a tick only while it takes a text.  If it comes to a failure of its own
     then, the tick fails for that reason (`failure_of_reached`); and if a tick that does not halt
     stops the clock, the host has come to ask for it (`reached_of_stop`).
-/

namespace Ls8

variable {σ ε : Type}

/-! ## Requests -/

/-- A request that the machine can always meet. -/
def Request.Harmless : Request ε → Prop
  | .stopClock => True
  | .raise line => 0 ≤ line ∧ line ≤ 7
  | .fault _ | .fail _ => False

/-- **A request is reached:** it is made, and all before it can be met. -/
inductive Request.Reached (r : Request ε) : List (Request ε) → Prop where
  | first (rest : List (Request ε)) : Reached r (r :: rest)
  | later {q : Request ε} {rest : List (Request ε)} (hq : q.Harmless) (h : Reached r rest) :
    Reached r (q :: rest)

/-- The lines that there are. -/
theorem exists_register?_iff {line : Int} :
    (∃ s, register? line = some s) ↔ 0 ≤ line ∧ line ≤ 7 := by
  rw [← Option.ne_none_iff_exists', Ne, register?_eq_none_iff]
  omega

/-- Requests that can be met are served to the end. -/
theorem Processor.serve_of_harmless {requests : List (Request ε)}
    (h : ∀ r ∈ requests, r.Harmless) (p : Processor) : (p.serve requests).2.2 = .done := by
  induction requests generalizing p with
  | nil => rfl
  | cons r rest ih =>
    have hrest := ih fun r' hr' => h r' (List.mem_cons_of_mem r hr')
    have hr := h r List.mem_cons_self
    cases r with
    | stopClock => exact hrest p
    | raise line =>
      obtain ⟨s, hs⟩ := exists_register?_iff.mpr hr
      rw [serve, raise, hs]
      exact hrest (p.withPending s)
    | fault f => exact hr.elim
    | fail reason => exact hr.elim

/-- A failure that is reached ends the serving. -/
theorem Processor.serve_of_reached {requests : List (Request ε)} {reason : ε}
    (h : Request.Reached (.fail reason) requests) (p : Processor) :
    (p.serve requests).2.2 = .failed reason := by
  induction h generalizing p with
  | first rest => rfl
  | @later q rest hq _ ih =>
    cases q with
    | stopClock => exact ih p
    | raise line =>
      obtain ⟨s, hs⟩ := exists_register?_iff.mpr hq
      rw [serve, raise, hs]
      exact ih (p.withPending s)
    | fault f => exact hq.elim
    | fail r => exact hq.elim

/-- Serving stops the clock for a request that is reached. -/
theorem Processor.reached_of_serve {requests : List (Request ε)} {p : Processor}
    (h : .stopClock ∈ (p.serve requests).2.1) : Request.Reached .stopClock requests := by
  induction requests generalizing p with
  | nil => exact absurd h List.not_mem_nil
  | cons r rest ih =>
    cases r with
    | stopClock => exact .first rest
    | raise line =>
      rw [serve] at h
      cases hraise : p.raise line with
      | error e =>
        rw [hraise] at h
        exact absurd h List.not_mem_nil
      | ok q =>
        rw [hraise] at h
        obtain ⟨s, hs, _⟩ := raise_eq_ok_iff.mp hraise
        exact .later (exists_register?_iff.mp ⟨s, hs⟩) (ih h)
    | fault f => exact absurd h List.not_mem_nil
    | fail reason => exact absurd h List.not_mem_nil

namespace Processor

variable {p q : Processor}

/-! ## Halting -/

/-- **Only the halt instruction halts** without a fault. -/
theorem halted_of_execute {op : Operation} {out : Output} (h : execute op p = .ok out q) :
    q.halted = (p.halted || op == .hlt) := by
  have hland : (out.land q).halted = q.halted := by cases out <;> rfl
  rw [← hland]
  have hrow := row_of_execute h
  generalize out.land q = r at hrow
  generalize out.text? = text at hrow
  cases hrow with
  | hlt => exact (Bool.or_true _).symm
  | _ => exact (Bool.or_false _).symm

/-- The entry of an interrupt does not halt. -/
theorem halted_of_enterInterrupt {line : Register} (h : enterInterrupt line p = .ok () q) :
    q.halted = p.halted := by
  rw [enterInterrupt_frame h]

end Processor

/-! ## Ticks -/

namespace Cpu

variable {outlet : Outlet σ ε} {c d : Cpu} {host : σ}

/-- What is put out by the end of a tick was put out before. -/
theorem output_mem_completed {effects : List Effect} {s : String} :
    .output s ∈ (d.completed host effects : Turn σ ε).effects ↔ .output s ∈ effects := by
  rw [completed]
  split <;> simp

/-- An instruction that completes stops the clock if it has halted, or if it had done so before. -/
theorem stop_mem_completed {effects : List Effect} :
    .stopClock ∈ (d.completed host effects : Turn σ ε).effects ↔
      d.processor.halted = true ∨ .stopClock ∈ effects := by
  rw [completed]
  split
  · rename_i hhalted
    simp [hhalted]
  · rename_i hrun
    simp [hrun]

/-- **Whatever halts the processor stops the clock** in the same tick, and the tick does not fail. -/
theorem stop_of_halted (hrun : c.processor.halted = false)
    (h : (c.tick outlet host).cpu.processor.halted = true) :
    (c.tick outlet host).failure = none ∧ .stopClock ∈ (c.tick outlet host).effects := by
  have hfaulted (d : Cpu) (host : σ) (effects : List Effect) (f : Fault) :
      (d.faulted host effects f : Turn σ ε).failure = none ∧
        .stopClock ∈ (d.faulted host effects f : Turn σ ε).effects :=
    ⟨rfl, by simp [effects_faulted]⟩
  have hcompleted (d : Cpu) (host : σ) (effects : List Effect)
      (h : (d.completed host effects : Turn σ ε).cpu.processor.halted = true) :
      (d.completed host effects : Turn σ ε).failure = none ∧
        .stopClock ∈ (d.completed host effects : Turn σ ε).effects := by
    rw [cpu_completed] at h
    exact ⟨failure_completed _, stop_mem_completed.mpr (.inl h)⟩
  revert h
  refine tick_cases ?_ ?_ ?_ ?_ ?_ ?_
  · intro hhalted
    rw [hrun] at hhalted
    cases hhalted
  · intro line q _ _ hq h
    have hstill : q.halted = true := h
    rw [Processor.halted_of_enterInterrupt hq, hrun] at hstill
    cases hstill
  · exact fun line f q _ _ _ _ => hfaulted _ _ _ _
  · exact fun _ _ _ _ => hfaulted _ _ _ _
  · exact fun opcode _ _ _ _ _ => hfaulted _ _ _ _
  · intro opcode i _ _ _ _
    refine perform_cases ?_ ?_ ?_ ?_ ?_
    · exact fun f q _ _ => hfaulted _ _ _ _
    · exact fun q _ h => hcompleted _ _ _ h
    · exact fun s width q r effects _ _ h => hcompleted _ _ _ h
    · exact fun s width q r effects f _ _ _ => hfaulted _ _ _ _
    · -- a tick that fails was about to put out a text, which does not halt
      intro s width q r effects reason hexec hserve h
      have hsame := congrArg Processor.halted (Processor.serve_frame (outlet.deliver host s).2 q)
      rw [hserve, Processor.eq_of_execute_text hexec] at hsame
      have hstill : r.halted = true := h
      rw [show r.halted = c.processor.halted from hsame, hrun] at hstill
      cases hstill

/-- A host that takes a text reports nothing. -/
theorem reports_taken {i : Instruction} {s : String} {q r : Processor} {effects : List Effect}
    {ending : Ending ε} (hserve : q.serve (outlet.deliver host s).2 = (r, effects, ending)) :
    (d.fetched i :: .output s :: effects).filterMap Effect.report? = [] := by
  have h := Processor.filterMap_serve (rfl : Effect.report? .stopClock = none)
    (outlet.deliver host s).2 q
  rw [hserve] at h
  exact h

/-- **A tick faults or it does not.**  If it does, it reports the fault that it keeps, and halts; if
    it does not, it reports nothing and leaves the fault that there was. -/
theorem reports_tick (outlet : Outlet σ ε) (c : Cpu) (host : σ) :
    ((c.tick outlet host).effects.filterMap Effect.report? = [] ∧
      (c.tick outlet host).cpu.fault = c.fault) ∨
    ∃ f, (c.tick outlet host).effects.filterMap Effect.report? = [f.message] ∧
      (c.tick outlet host).cpu.fault = some f ∧
      (c.tick outlet host).cpu.processor.halted = true := by
  have hfaulted (d : Cpu) (host : σ) {before : List Effect} (f : Fault)
      (hbefore : before.filterMap Effect.report? = []) :
      ∃ g, (d.faulted host before f : Turn σ ε).effects.filterMap Effect.report? = [g.message] ∧
        (d.faulted host before f : Turn σ ε).cpu.fault = some g ∧
        (d.faulted host before f : Turn σ ε).cpu.processor.halted = true :=
    ⟨f, by rw [effects_faulted, List.filterMap_append, hbefore]; rfl, rfl, rfl⟩
  have hcompleted (d : Cpu) (host : σ) {effects : List Effect}
      (heffects : effects.filterMap Effect.report? = []) :
      (d.completed host effects : Turn σ ε).effects.filterMap Effect.report? = [] ∧
        (d.completed host effects : Turn σ ε).cpu.fault = d.fault := by
    rw [completed]
    split
    · exact ⟨by rw [List.filterMap_append, heffects]; rfl, rfl⟩
    · exact ⟨heffects, rfl⟩
  refine tick_cases ?_ ?_ ?_ ?_ ?_ ?_
  · exact fun _ => .inl ⟨rfl, rfl⟩
  · exact fun line q _ _ _ => .inl ⟨rfl, rfl⟩
  · exact fun line f q _ _ _ => .inr (hfaulted _ _ _ rfl)
  · exact fun _ _ _ => .inr (hfaulted _ _ _ rfl)
  · exact fun opcode _ _ _ _ => .inr (hfaulted _ _ _ rfl)
  · intro opcode i _ _ _ _
    refine perform_cases ?_ ?_ ?_ ?_ ?_
    · exact fun f q _ => .inr (hfaulted _ _ _ rfl)
    · exact fun q _ => .inl (hcompleted _ _ rfl)
    · exact fun s width q r effects _ hserve => .inl (hcompleted _ _ (reports_taken hserve))
    · exact fun s width q r effects f _ hserve => .inr (hfaulted _ _ _ (reports_taken hserve))
    · exact fun s width q r effects reason _ hserve => .inl ⟨reports_taken hserve, rfl⟩

/-- **A tick fails** if the host, while it takes a text, reaches a failure of its own. -/
theorem failure_of_reached {s : String} {reason : ε}
    (hs : .output s ∈ (c.tick outlet host).effects)
    (h : Request.Reached (.fail reason) (outlet.deliver host s).2) :
    (c.tick outlet host).failure = some reason := by
  revert hs
  refine tick_cases ?_ ?_ ?_ ?_ ?_ ?_
  · exact fun _ hs => nomatch hs
  · exact fun line q _ _ _ hs => by simp [entryNotice] at hs
  · exact fun line f q _ _ _ hs => by simp [effects_faulted, entryNotice] at hs
  · exact fun _ _ _ hs => by simp [effects_faulted] at hs
  · exact fun opcode _ _ _ _ hs => by simp [effects_faulted] at hs
  · intro opcode i _ _ _ _
    -- the one text that an instruction puts out is the one that the host takes
    have hsame {s' : String} {effects : List Effect} {ending : Ending ε} {q r : Processor}
        (hserve : q.serve (outlet.deliver host s').2 = (r, effects, ending))
        (hs : .output s ∈ (c.fetching opcode i.mnemonic).fetched i :: .output s' :: effects) :
        ending = .failed reason := by
      have honly := Processor.serve_effects (outlet.deliver host s').2 q
      rw [hserve] at honly
      have hmem : s = s' ∨ .output s ∈ effects := by simpa [fetched] using hs
      rcases hmem with rfl | hmem
      · have hended := Processor.serve_of_reached h q
        rw [hserve] at hended
        exact hended
      · exact nomatch honly _ hmem
    refine perform_cases ?_ ?_ ?_ ?_ ?_
    · exact fun f q _ hs => by simp [effects_faulted, fetched] at hs
    · exact fun q _ hs => by simp [output_mem_completed, fetched] at hs
    · intro s' width q r effects _ hserve hs
      exact nomatch hsame hserve (output_mem_completed.mp hs)
    · intro s' width q r effects f _ hserve hs
      rw [effects_faulted, List.mem_append] at hs
      rcases hs with hs | hs
      · exact nomatch hsame hserve hs
      · simp at hs
    · intro s' width q r effects reason' _ hserve hs
      obtain ⟨rfl⟩ := Ending.failed.inj (hsame hserve hs)
      rfl

/-- **A tick that stops the clock** has halted, or the host has come to ask for it while it took a
    text. -/
theorem reached_of_stop (h : .stopClock ∈ (c.tick outlet host).effects) :
    (c.tick outlet host).cpu.processor.halted = true ∨
      ∃ s, .output s ∈ (c.tick outlet host).effects ∧
        Request.Reached .stopClock (outlet.deliver host s).2 := by
  revert h
  refine tick_cases ?_ ?_ ?_ ?_ ?_ ?_
  · exact fun _ h => nomatch h
  · exact fun line q _ _ _ h => by simp [entryNotice] at h
  · exact fun line f q _ _ _ _ => .inl rfl
  · exact fun _ _ _ _ => .inl rfl
  · exact fun opcode _ _ _ _ _ => .inl rfl
  · intro opcode i _ _ _ _
    have hasked {s : String} {effects : List Effect} {ending : Ending ε} {q r : Processor}
        (hserve : q.serve (outlet.deliver host s).2 = (r, effects, ending))
        (h : .stopClock ∈ (c.fetching opcode i.mnemonic).fetched i :: .output s :: effects) :
        Request.Reached .stopClock (outlet.deliver host s).2 := by
      have hmem : .stopClock ∈ effects := by simpa [fetched] using h
      refine Processor.reached_of_serve (p := q) ?_
      rwa [hserve]
    refine perform_cases ?_ ?_ ?_ ?_ ?_
    · exact fun f q _ _ => .inl rfl
    · intro q _ h
      rcases stop_mem_completed.mp h with hhalted | hmem
      · exact .inl (by rwa [cpu_completed])
      · simp [fetched] at hmem
    · intro s width q r effects _ hserve h
      rcases stop_mem_completed.mp h with hhalted | hmem
      · exact .inl (by rwa [cpu_completed])
      · exact .inr ⟨s, output_mem_completed.mpr (by simp), hasked hserve hmem⟩
    · exact fun s width q r effects f _ _ _ => .inl rfl
    · intro s width q r effects reason _ hserve h
      exact .inr ⟨s, by simp, hasked hserve h⟩

end Cpu

end Ls8
