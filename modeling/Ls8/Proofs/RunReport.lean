import Ls8.Proofs.Halting
import Ls8.Proofs.MachineEnd
import Ls8.Proofs.SessionEnd
import Ls8.Proofs.TickOutput
import Ls8.Proofs.TraceHistory

/-
  What can be said of a run that has returned, from its firings alone.

  1. **Its cause.**  A host that asks for nothing but failures cannot stop the clock, so a run that
     returns has halted the processor (`halted_of_returned`), and its last firing is the tick that did
     it.  Without a fault that tick executed the halt instruction (`executes_hlt_iff`): there is no other
     way out.

  2. **Its output.**  Texts are put out by ticks only, one by each tick that has one (`texts_run`).

  3. **Its last entry.**  A tick that faults closes with the entry of the fault.  Nothing is fired after
     it, so that entry is the last one of the run (`Report.closed`).

  Main statements: `Machine.texts_run` and `Machine.report_of_halted`.
-/

namespace Ls8

variable {τ σ ε : Type}

/-- **A host that does nothing with a text but take it:** it asks for nothing, unless it fails. -/
def Environment.PrintsOnly (env : Environment τ σ ε) : Prop :=
  ∀ host s, ∀ r ∈ (env.output.deliver host s).2, ∃ reason, r = .fail reason

/-- A request that is reached has been made. -/
theorem Request.Reached.mem {r : Request ε} {requests : List (Request ε)} (h : r.Reached requests) :
    r ∈ requests := by
  induction h with
  | first rest => exact List.mem_cons_self
  | later _ _ ih => exact List.mem_cons_of_mem _ ih

/-! ## Why a tick halts -/

namespace Cpu

variable {outlet : Outlet σ ε} {c : Cpu} {host : σ}

/-- **A tick that halts without a fault** executes the halt instruction. -/
theorem executes_hlt_of_halted (hrun : c.processor.halted = false)
    (hhalted : (c.tick outlet host).cpu.processor.halted = true)
    (hfault : (c.tick outlet host).cpu.fault = none) : c.Executes .hlt := by
  revert hhalted hfault
  refine tick_cases ?_ ?_ ?_ ?_ ?_ ?_
  · intro hhalted _ _
    exact nomatch hrun.symm.trans hhalted
  · intro line q _ _ hq hhalted _
    have hstill := (Processor.halted_of_enterInterrupt hq).symm.trans hhalted
    exact nomatch hrun.symm.trans hstill
  · exact fun line f q _ _ _ _ hfault => nomatch hfault
  · exact fun _ _ _ _ hfault => nomatch hfault
  · exact fun opcode _ _ _ _ _ hfault => nomatch hfault
  · intro opcode i _ hidle hbyte hentry
    have hi : c.instruction? = some i := instruction?_eq_some_iff.mpr ⟨opcode, hbyte, hentry⟩
    -- whatever is executed, the processor has halted exactly if it is the halt instruction
    have hexec {out : Output} {q : Processor} (h : Processor.execute i.operation
        (c.fetching opcode i.mnemonic).processor = .ok out q) (hhalted : q.halted = true) :
        c.Executes .hlt := by
      have hop : (c.processor.halted || i.operation == .hlt) = true :=
        (Processor.halted_of_execute h).symm.trans hhalted
      rw [hrun, Bool.false_or, beq_iff_eq] at hop
      exact ⟨hrun, hidle, by rw [hi, Option.map_some, hop]⟩
    have hserved {s : String} {q r : Processor} {effects : List Effect} {ending : Ending ε}
        (hserve : q.serve (outlet.deliver host s).2 = (r, effects, ending)) :
        r.halted = q.halted := by
      have hframe := congrArg Processor.halted (Processor.serve_frame (outlet.deliver host s).2 q)
      rwa [hserve] at hframe
    refine perform_cases ?_ ?_ ?_ ?_ ?_
    · exact fun f q _ _ hfault => nomatch hfault
    · intro q h hhalted _
      rw [cpu_completed] at hhalted
      exact hexec h hhalted
    · intro s width q r effects h hserve hhalted _
      rw [cpu_completed] at hhalted
      exact hexec h ((hserved hserve).symm.trans hhalted)
    · exact fun s width q r effects f _ _ _ hfault => nomatch hfault
    · intro s width q r effects reason h hserve hhalted _
      exact hexec h ((hserved hserve).symm.trans hhalted)

/-- **Of the ticks that halt,** those without a fault are those that execute the halt instruction. -/
theorem executes_hlt_iff (hrun : c.processor.halted = false) (hnone : c.fault = none)
    (hhalted : (c.tick outlet host).cpu.processor.halted = true) :
    c.Executes .hlt ↔ (c.tick outlet host).cpu.fault = none := by
  constructor
  · intro hexec
    obtain ⟨_, _, hfault⟩ := hexec.tick_of_row (fun _ => .hlt) outlet host
    rw [hfault, hnone]
  · exact executes_hlt_of_halted hrun hhalted

/-- **A tick that faults closes with its fault:** that is the last entry. -/
theorem getLast?_entries (hrun : c.processor.halted = false) (hnone : c.fault = none) {f : Fault}
    (hfault : (c.tick outlet host).cpu.fault = some f) :
    (c.entries outlet host).getLast? = some ((c.tick outlet host).cpu.processor.entry
      (some (c.tick outlet host).cpu.processor.ir) "" "fault") := by
  have hcloses : (c.tick outlet host).closing?.isSome := by
    rw [closing?_isSome_iff hnone, hfault]
    rfl
  rw [entries, hrun, if_neg Bool.false_ne_true]
  rw [Turn.closing?] at hcloses ⊢
  split at hcloses
  · cases hcloses
  · rename_i hreports
    rw [if_neg hreports, Option.toList_some, List.getLast?_concat]

end Cpu

/-! ## Texts -/

/-- The texts that were put out so far. -/
def Rig.texts (rig : Rig σ) : List String := rig.effects.toList.filterMap Effect.output?

theorem Rig.texts_listing (rig : Rig σ) (effects : List Effect) :
    (rig.listing (fun _ => true) effects).texts = rig.texts ++ effects.filterMap Effect.output? := by
  rw [texts, texts, toList_effects_listing, List.filterMap_append, List.filter_eq_self.mpr]
  exact fun _ _ => rfl

/-- A stop is no output, however it is listed. -/
theorem filterMap_output?_listed (n : Nat) (effects : List Effect) :
    (effects.map (.listed n)).filterMap Effect.output? = effects.filterMap Effect.output? := by
  have hsame : Effect.output? ∘ Effect.listed n = Effect.output? :=
    funext fun e => by cases e <;> rfl
  rw [List.filterMap_map, hsame]

namespace Machine

/-- **The texts of a firing:** a tick has one at most, and the timer none. -/
def firingTexts : Beat × Rig σ → List String
  | (.tick, rig) => rig.cpu.text?.toList
  | (.timer, _) => []

/-- A host that asks for nothing but failures does not ask for a stop. -/
theorem not_asks_stop {env : Environment τ σ ε} (hsleeps : env.SleepsOnly) (hprints : env.PrintsOnly)
    (h : Clock.Happening τ Beat (Rig σ)) : ¬ Asks env h .stopClock := by
  rintro ⟨requests, hhook, hreached⟩
  have hfails : ∃ reason, (.stopClock : Request ε) = .fail reason := by
    cases h with
    | added => exact absurd hhook List.not_mem_nil
    | told => exact absurd hhook List.not_mem_nil
    | slept d rig =>
      rw [List.mem_singleton.mp hhook] at hreached
      exact hsleeps rig.host d _ hreached.mem
    | fired beat rig =>
      cases beat with
      | timer => exact absurd hhook List.not_mem_nil
      | tick =>
        obtain ⟨s, _, rfl⟩ := List.mem_map.mp hhook
        exact hprints rig.host s _ hreached.mem
  obtain ⟨_, hreason⟩ := hfails
  cases hreason

section Keeps
variable [Add τ] [Zero τ] [LE τ] [LT τ] [DecidableLE τ] [DecidableLT τ]

/-- **The host of a machine's clock puts out the texts of the firings.** -/
theorem keeps_texts (env : Environment τ σ ε) (before : List String) :
    (clockHost env).logged.Keeps fun s : Clock.Log Beat (Rig σ) × Rig σ =>
      s.2.texts = before ++ s.1.flatMap firingTexts := by
  refine keeps_logged ?_ ?_ ?_ ?_
  · intro log rig n htexts
    rw [Rig.ticked, Rig.texts_listing, filterMap_output?_listed, Cpu.texts_tick]
    show rig.texts ++ _ = _
    rw [htexts, List.flatMap_append, List.flatMap_singleton, List.append_assoc]
    rfl
  · intro log rig htexts
    rw [List.flatMap_append, List.flatMap_singleton]
    exact htexts.trans (congrArg _ (List.append_nil _).symm)
  · intro log rig d n htexts
    have hquiet := Processor.filterMap_serve (rfl : Effect.output? .stopClock = none)
      (env.sleep rig.host d).2 rig.cpu.processor
    rw [Rig.served, Rig.texts_listing, filterMap_output?_listed, hquiet, List.append_nil]
    exact htexts
  · intro log rig e htexts
    rw [Rig.texts_listing]
    exact (List.append_nil _).trans htexts

end Keeps

variable [Add τ] [Sub τ] [Zero τ] [LE τ] [LT τ] [DecidableLE τ] [DecidableLT τ]
variable {env : Environment τ σ ε} {m : Machine τ σ}

/-- **A run puts out the texts of its firings.** -/
theorem texts_run (env : Environment τ σ ε) (fuel : Nat) (m : Machine τ σ) :
    (m.run env fuel).1.rig.texts = m.rig.texts ++ (m.firings env fuel).flatMap firingTexts :=
  keeps_run (keeps_texts env m.rig.texts) fuel (List.append_nil _).symm

/-! ## Runs -/

/-- **A run that returns is over.** -/
theorem exists_over (env : Environment τ σ ε) (fuel : Nat) (m : Machine τ σ)
    (htick : ¬ m.tickInterval ≤ 0) (htimer : ¬ m.timerInterval ≤ 0)
    (hrun : m.rig.cpu.processor.halted = false) (hidle : m.clock.running = false)
    (hempty : m.clock.events = .empty) (hreturned : (m.run env fuel).2 = none) :
    ∃ t : State τ σ, (m.run env fuel).1.rig = t.2.2 ∧ Over env t := by
  have hleft := leaves_runTask env fuel m htick htimer hrun hidle hempty _ rfl
  have hsame := Clock.projects_performJournaled (clockHost env) fuel
    (runTask m.tickInterval m.timerInterval) (m.clock, ([], m.rig))
  revert hleft hsame
  rcases Clock.performJournaled (clockHost env) fuel (runTask m.tickInterval m.timerInterval)
    (m.clock, ([], m.rig)) with ⟨u, t⟩ | ⟨i, t⟩
  · rintro ⟨running, ⟨hunder, hfinished⟩, _⟩ hsame
    refine ⟨({ t.1 with running }, t.2), ?_, hunder.over hfinished⟩
    rw [run, perform, ← show _ = Clock.perform (clockHost env) fuel _ (m.clock, m.rig) from hsame]
    rfl
  · intro _ hsame
    rw [run, perform, ← show _ = Clock.perform (clockHost env) fuel _ (m.clock, m.rig) from hsame]
      at hreturned
    cases hreturned

/-- **A run that returns has halted the processor,** if its host asks for nothing but failures. -/
theorem halted_of_returned (hsleeps : env.SleepsOnly) (hprints : env.PrintsOnly) (fuel : Nat)
    (htick : ¬ m.tickInterval ≤ 0) (htimer : ¬ m.timerInterval ≤ 0)
    (hrun : m.rig.cpu.processor.halted = false) (hidle : m.clock.running = false)
    (hempty : m.clock.events = .empty) (hreturned : (m.run env fuel).2 = none) :
    (m.run env fuel).1.rig.cpu.processor.halted = true := by
  obtain ⟨t, hrig, hover⟩ := exists_over env fuel m htick htimer hrun hidle hempty hreturned
  rw [hrig]
  by_contra hstill
  obtain ⟨h, _, hasks⟩ := hover.asked (Bool.eq_false_iff.mpr hstill)
  exact not_asks_stop hsleeps hprints h hasks

/-- **What a run reports** that has halted the processor, `after` being the processor then. -/
structure Report (env : Environment τ σ ε) (firings : Clock.Log Beat (Rig σ)) (after : Cpu) :
    Prop where
  halted : after.processor.halted = true
  /-- The last firing is a tick, and it executed the halt instruction unless it faulted. -/
  last : ∃ earlier rig, firings = earlier ++ [(.tick, rig)] ∧
    (rig.cpu.Executes .hlt ↔ after.fault = none)
  /-- The last entry is that of the fault, if there is one. -/
  closed : after.fault.isSome → (firings.flatMap (firingEntries env)).getLast? =
    some (after.processor.entry (some after.processor.ir) "" "fault")

/-- **A run that halts the processor** reports its cause. -/
theorem report_of_halted (env : Environment τ σ ε) (fuel : Nat) (hsettled : m.rig.Settled)
    (hrun : m.rig.cpu.processor.halted = false)
    (hhalted : (m.run env fuel).1.rig.cpu.processor.halted = true) :
    Report env (m.firings env fuel) (m.run env fuel).1.rig.cpu := by
  have horderly := orderly_run env fuel hsettled hrun
  obtain ⟨earlier, rig, n, hfirings, hafter⟩ := horderly.last hhalted
  have hfirings : m.firings env fuel = earlier ++ [(.tick, rig)] := hfirings
  have hcpu : (m.run env fuel).1.rig.cpu = (rig.cpu.tick env.output rig.host).cpu :=
    congrArg Rig.cpu hafter
  obtain ⟨hfound, hnone⟩ : rig.cpu.processor.halted = false ∧ rig.cpu.fault = none := by
    refine horderly.found (.tick, rig) ?_
    show _ ∈ m.firings env fuel
    rw [hfirings]
    exact List.mem_append_right _ (List.mem_singleton.mpr rfl)
  rw [hcpu] at hhalted ⊢
  refine ⟨hhalted, ⟨earlier, rig, hfirings, Cpu.executes_hlt_iff hfound hnone hhalted⟩, ?_⟩
  intro hsome
  obtain ⟨f, hf⟩ := Option.isSome_iff_exists.mp hsome
  -- nothing is fired after the tick that faulted, so its last entry is the last entry of the run
  have hlast : (rig.cpu.entries env.output rig.host).getLast? =
      some ((rig.cpu.tick env.output rig.host).cpu.processor.entry
        (some (rig.cpu.tick env.output rig.host).cpu.processor.ir) "" "fault") :=
    Cpu.getLast?_entries hfound hnone hf
  rw [hfirings, List.flatMap_append, List.flatMap_singleton]
  show (_ ++ rig.cpu.entries env.output rig.host).getLast? = _
  rw [List.getLast?_append, hlast]
  rfl

end Machine

end Ls8
