import Ls8.Proofs.MachineHistory
import Ls8.Proofs.Stopping
import Ls8.Proofs.Trace.Recent
import Mathlib.Algebra.Ring.Int.Defs

/-
  The trace is the recent history of a run.

  1. **Entries.**  A tick of a running processor is seen twice at most.  It opens with the entry of an
     interrupt or with the byte that it fetches, as the processor was before the tick (`opening?`); it
     closes, if it reports a fault, with the processor that the fault leaves (`closing?`).

  2. **The crux** is the moment.  Recording happens in the middle of a tick, after the tick has been
     counted and the fetched byte kept, and before the processor halts on a fault.  But an entry shows
     neither the count nor the fetched byte of the processor, so each course of a tick records just
     these two entries, in this order (`trace_tick`).

  3. **Runs.**  Nothing else records anything, so after any history the recorder is what it becomes
     when it is given the log of all ticks (`trace_run`, `trace_history`), and that is the end of the
     log.

  Main statement: `trace_is_recent_history`.
-/

namespace Ls8

variable {τ σ ε : Type}

/-- A trace, if there is one, after more entries. -/
def Trace.extended (trace : Option Trace.Recorder) (es : List Trace.Entry) :
    Option Trace.Recorder :=
  trace.map fun r => es.foldl Trace.Recorder.record r

@[simp] theorem Trace.extended_nil (trace : Option Trace.Recorder) :
    Trace.extended trace [] = trace := by
  cases trace <;> rfl

theorem Trace.extended_append (trace : Option Trace.Recorder) (es more : List Trace.Entry) :
    Trace.extended trace (es ++ more) = Trace.extended (Trace.extended trace es) more := by
  cases trace with
  | none => rfl
  | some r => exact congrArg some List.foldl_append

/-! ## What is seen of a tick -/

/-- **What an entry shows of a processor.** -/
def Processor.entry (p : Processor) (opcode : Option UInt8) (mnemonic note : String) :
    Trace.Entry where
  pc := UInt8.ofInt p.pc
  opcode := opcode
  mnemonic := mnemonic
  registers := p.registers.toList
  equal := p.equal
  interruptsEnabled := p.interruptsEnabled
  halted := p.halted
  note := note

/-- A sample keeps all that an entry shows. -/
theorem Processor.ofSample_sample (p : Processor) (opcode : Option UInt8) (mnemonic note : String) :
    Trace.Entry.ofSample p.sample (opcode.map fun b => (b.toNat : Int)) mnemonic note =
      p.entry opcode mnemonic note := by
  have hbyte (b : UInt8) : UInt8.ofInt b.toNat = b := by
    have h := toNat_ofInt b.toNat
    have := b.toNat_lt
    exact UInt8.toNat_inj.mp (by omega)
  rw [Trace.Entry.ofSample, entry, sample]
  simp [hbyte, Function.comp_def]

/-- **The entry with which a tick opens:** that of an interrupt, if one is due; else the byte at the
    program counter with its name, if there is a byte. -/
def Cpu.opening? (c : Cpu) : Option Trace.Entry :=
  match c.processor.nextLine? with
  | some line => some (c.processor.entry none "" ("irq" ++ Text.decimal (line : Nat)))
  | none => (c.processor.memory.get? c.processor.pc).map fun opcode =>
      c.processor.entry (some opcode) (((c.table.get opcode).map (·.mnemonic)).getD "") ""

/-- **The entry with which a turn closes** if it reports a fault. -/
def Turn.closing? (turn : Turn σ ε) : Option Trace.Entry :=
  if turn.effects.filterMap Effect.report? = [] then none
  else some (turn.cpu.processor.entry (some turn.cpu.processor.ir) "" "fault")

namespace Cpu

variable {outlet : Outlet σ ε} {c d : Cpu} {host : σ} {effects : List Effect}

/-- **The entries of a tick.** -/
def entries (outlet : Outlet σ ε) (c : Cpu) (host : σ) : List Trace.Entry :=
  if c.processor.halted then []
  else c.opening?.toList ++ (c.tick outlet host).closing?.toList

/-! ## What a tick records -/

theorem trace_record (c : Cpu) (opcode : Option UInt8) (mnemonic note : String) :
    (c.record opcode mnemonic note).trace =
      Trace.extended c.trace [c.processor.entry opcode mnemonic note] := by
  rw [record, Processor.ofSample_sample]
  rfl

/-- What a faulted tick has recorded at its end. -/
theorem trace_faulted (f : Fault) : (d.faulted host effects f : Turn σ ε).cpu.trace =
    Trace.extended d.trace (d.faulted host effects f : Turn σ ε).closing?.toList := by
  have hreport : (d.faulted host effects f : Turn σ ε).effects.filterMap Effect.report? ≠ [] := by
    simp [effects_faulted, Effect.report?]
  rw [Turn.closing?, if_neg hreport]
  exact trace_record _ (some d.processor.ir) "" "fault"

/-- What did not report a fault has recorded nothing at its end. -/
theorem trace_of_quiet {failure : Option ε} (h : effects.filterMap Effect.report? = []) :
    d.trace = Trace.extended d.trace
      (⟨d, host, effects, failure⟩ : Turn σ ε).closing?.toList := by
  rw [Turn.closing?, if_pos h]
  exact (Trace.extended_nil d.trace).symm

theorem trace_completed (h : effects.filterMap Effect.report? = []) :
    (d.completed host effects : Turn σ ε).cpu.trace =
      Trace.extended d.trace (d.completed host effects : Turn σ ε).closing?.toList := by
  rw [completed]
  split
  · exact trace_of_quiet (by simp [h, Effect.report?])
  · exact trace_of_quiet h

/-- **An instruction records nothing but its fault,** if it ends with one. -/
theorem trace_perform (outlet : Outlet σ ε) (c : Cpu) (i : Instruction) (host : σ) :
    (c.perform outlet i host).cpu.trace =
      Trace.extended c.trace (c.perform outlet i host).closing?.toList := by
  refine perform_cases ?_ ?_ ?_ ?_ ?_
  · exact fun f q _ => trace_faulted f
  · exact fun q _ => trace_completed rfl
  · exact fun s width q r effects _ hserve => trace_completed (reports_taken hserve)
  · exact fun s width q r effects f _ hserve => trace_faulted f
  · exact fun s width q r effects reason _ hserve => trace_of_quiet (reports_taken hserve)

/-- The entry of an interrupt is recorded before anything is saved. -/
theorem trace_entering {line : Register} (hline : c.processor.nextLine? = some line) :
    (c.entering line).trace = Trace.extended c.trace c.opening?.toList := by
  rw [opening?, hline]
  exact trace_record c.counted none "" ("irq" ++ Text.decimal (line : Nat))

/-- A fetched byte is recorded once it is kept, and before it is executed. -/
theorem trace_fetching {opcode : UInt8} {mnemonic : String} (hidle : c.processor.nextLine? = none)
    (hbyte : c.processor.memory.get? c.processor.pc = some opcode)
    (hname : ((c.table.get opcode).map (·.mnemonic)).getD "" = mnemonic) :
    (c.fetching opcode mnemonic).trace = Trace.extended c.trace c.opening?.toList := by
  rw [opening?, hidle, hbyte, Option.map_some, hname]
  exact trace_record _ (some opcode) mnemonic ""

/-- **A tick records its entries.** -/
theorem trace_tick (outlet : Outlet σ ε) (c : Cpu) (host : σ) :
    (c.tick outlet host).cpu.trace = Trace.extended c.trace (c.entries outlet host) := by
  -- a tick opens, and what comes then closes it
  have hboth {d : Cpu} {turn : Turn σ ε} (hrun : c.processor.halted = false)
      (hopens : d.trace = Trace.extended c.trace c.opening?.toList)
      (hcloses : turn.cpu.trace = Trace.extended d.trace turn.closing?.toList) :
      turn.cpu.trace = Trace.extended c.trace (if c.processor.halted then []
        else c.opening?.toList ++ turn.closing?.toList) := by
    rw [hrun, if_neg Bool.false_ne_true, Trace.extended_append, ← hopens, ← hcloses]
  rw [entries]
  refine tick_cases ?_ ?_ ?_ ?_ ?_ ?_
  · intro hhalted
    rw [if_pos hhalted, Trace.extended_nil]
  · intro line q hrun hline _
    exact hboth hrun (trace_entering hline) (trace_of_quiet (d := (c.entering line).withProcessor q)
      (by simp [entryNotice, Effect.report?]))
  · intro line f q hrun hline _
    exact hboth (d := (c.entering line).withProcessor q) hrun (trace_entering hline)
      (trace_faulted f)
  · intro hrun hidle hcovers
    have hnone : c.opening? = none := by
      rw [opening?, hidle, Memory.get?_eq_none_iff.mpr hcovers]
      rfl
    refine hboth (d := c.counted) hrun ?_ (trace_faulted _)
    rw [hnone]
    exact (Trace.extended_nil c.trace).symm
  · intro opcode hrun hidle hbyte hentry
    exact hboth hrun (trace_fetching hidle hbyte (by rw [hentry]; rfl)) (trace_faulted _)
  · intro opcode i hrun hidle hbyte hentry
    exact hboth hrun (trace_fetching hidle hbyte (by rw [hentry]; rfl)) (trace_perform ..)

/-- A tick closes exactly with the fault that it keeps. -/
theorem closing?_isSome_iff (hfault : c.fault = none) :
    (c.tick outlet host).closing?.isSome ↔ (c.tick outlet host).cpu.fault.isSome := by
  rw [Turn.closing?]
  rcases reports_tick outlet c host with ⟨hreports, hkept⟩ | ⟨f, hreports, hkept, _⟩
  · rw [if_pos hreports, hkept, hfault]
    rfl
  · rw [if_neg (by rw [hreports]; exact List.cons_ne_nil _ _), hkept]
    rfl

end Cpu

/-! ## Histories -/

namespace Rig

variable {outlet : Outlet σ ε} {rig : Rig σ}

/-- **The entries of an action:** those of a tick, and none otherwise. -/
def entries (outlet : Outlet σ ε) (rig : Rig σ) : HostAction → List Trace.Entry
  | .tick => rig.cpu.entries outlet rig.host
  | .poke .. | .raise _ | .timer | .setRegister .. | .setSp _ => []

/-- **The log of a history,** the earliest entry first. -/
def log (outlet : Outlet σ ε) (rig : Rig σ) : List HostAction → List Trace.Entry
  | [] => []
  | a :: rest => rig.entries outlet a ++ (rig.act outlet a).log outlet rest

/-- Replacing the processor by one with the same trace leaves the trace. -/
theorem trace_withCpu {α β : Type} (rig : Rig σ) (result : Except α β) {f : β → Cpu}
    (h : ∀ b, (f b).trace = rig.cpu.trace) :
    (rig.withCpu (result.map f)).cpu.trace = rig.cpu.trace := by
  cases result with
  | error e => rfl
  | ok b => exact h b

theorem trace_act (rig : Rig σ) (a : HostAction) :
    (rig.act outlet a).cpu.trace = Trace.extended rig.cpu.trace (rig.entries outlet a) := by
  cases a with
  | tick => exact Cpu.trace_tick outlet rig.cpu rig.host
  | poke | raise =>
    rw [entries, Trace.extended_nil]
    exact rig.trace_withCpu _ fun _ => rfl
  | setRegister index value =>
    rw [entries, Trace.extended_nil, act]
    split <;> rfl
  | timer | setSp => exact (Trace.extended_nil _).symm

/-- **A history records its log.** -/
theorem trace_run (rig : Rig σ) (actions : List HostAction) :
    (rig.run outlet actions).cpu.trace = Trace.extended rig.cpu.trace (rig.log outlet actions) := by
  induction actions generalizing rig with
  | nil => exact (Trace.extended_nil _).symm
  | cons a rest ih => rw [run_cons, ih, trace_act, log, Trace.extended_append]

end Rig

namespace Machine

variable [Add τ] [Sub τ] [Zero τ] [LE τ] [LT τ] [DecidableLE τ] [DecidableLT τ]
variable {env : Environment τ σ ε}

/-- The entries of a firing. -/
def firingEntries (env : Environment τ σ ε) : Beat × Rig σ → List Trace.Entry
  | (.tick, rig) => rig.cpu.entries env.output rig.host
  | (.timer, _) => []

/-- **The entries of an action:** those of a tick, and of the firings of a run. -/
def entries (env : Environment τ σ ε) (m : Machine τ σ) : MachineAction → List Trace.Entry
  | .tick => m.rig.cpu.entries env.output m.rig.host
  | .run fuel => (m.firings env fuel).flatMap (firingEntries env)
  | .poke .. | .raise _ | .timer | .load .. => []

/-- **The log of a history,** the earliest entry first. -/
def log (env : Environment τ σ ε) (m : Machine τ σ) : List MachineAction → List Trace.Entry
  | [] => []
  | a :: rest => m.entries env a ++ (m.act env a).1.log env rest

omit [Sub τ] in
/-- **The host of a machine's clock records the entries of the firings.** -/
theorem keeps_trace (env : Environment τ σ ε) (trace : Option Trace.Recorder) :
    (clockHost env).logged.Keeps fun s : Clock.Log Beat (Rig σ) × Rig σ =>
      s.2.cpu.trace = Trace.extended trace (s.1.flatMap (firingEntries env)) := by
  -- a firing extends the log by itself and the trace by its entries
  have hfired {log : Clock.Log Beat (Rig σ)} {rig rig' : Rig σ} {beat : Beat}
      (htrace : rig.cpu.trace = Trace.extended trace (log.flatMap (firingEntries env)))
      (hrig : rig'.cpu.trace = Trace.extended rig.cpu.trace (firingEntries env (beat, rig))) :
      rig'.cpu.trace =
        Trace.extended trace ((log ++ [(beat, rig)]).flatMap (firingEntries env)) := by
    rw [hrig, htrace, ← Trace.extended_append, List.flatMap_append, List.flatMap_singleton]
  refine keeps_logged ?_ ?_ ?_ ?_
  · exact fun log rig n htrace => hfired htrace (Cpu.trace_tick env.output rig.cpu rig.host)
  · exact fun log rig htrace => hfired htrace (Trace.extended_nil _).symm
  · exact fun log rig d n htrace => htrace
  · exact fun log rig e htrace => htrace

/-- **A run records the entries of its firings.** -/
theorem trace_run (env : Environment τ σ ε) (fuel : Nat) (m : Machine τ σ) :
    (m.run env fuel).1.rig.cpu.trace = Trace.extended m.rig.cpu.trace
      ((m.firings env fuel).flatMap (firingEntries env)) :=
  keeps_run (keeps_trace env m.rig.cpu.trace) fuel (Trace.extended_nil _).symm

theorem trace_act (m : Machine τ σ) (a : MachineAction) :
    (m.act env a).1.rig.cpu.trace = Trace.extended m.rig.cpu.trace (m.entries env a) := by
  cases a with
  | tick =>
    rw [act_tick]
    exact Cpu.trace_tick env.output m.rig.cpu m.rig.host
  | run fuel => exact trace_run env fuel m
  | poke | raise =>
    rw [entries, Trace.extended_nil]
    exact m.rig.trace_withCpu _ fun _ => rfl
  | timer => exact (Trace.extended_nil _).symm
  | load bytes name =>
    rw [entries, Trace.extended_nil, act, actBy, load]
    split <;> rfl

theorem trace_history (m : Machine τ σ) (actions : List MachineAction) :
    (m.history (act env) actions).1.rig.cpu.trace =
      Trace.extended m.rig.cpu.trace (m.log env actions) := by
  induction actions generalizing m with
  | nil => exact (Trace.extended_nil _).symm
  | cons a rest ih => rw [fst_history_cons, ih, trace_act, log, Trace.extended_append]

end Machine

/-! ## The end of the log -/

/-- What a recorder holds after more entries. -/
theorem Trace.entries_of_extended {r : Trace.Recorder} {trace : Option Trace.Recorder}
    {es : List Trace.Entry} (h : trace = Trace.extended (some r) es) :
    ∃ r', trace = some r' ∧ r'.capacity = r.capacity ∧
      r'.entries none = (r.entries none ++ es).rtake r.capacity := by
  obtain ⟨hcapacity, hrecent⟩ := r.recent_foldl_record es
  refine ⟨_, h, hcapacity, ?_⟩
  rw [Trace.Recorder.entries_none, Trace.Recorder.entries_none, hrecent]

/-- **The trace is the recent history of the run.**  Take a processor with a recorder, and let a host
    tick it and do to it whatever else it may, in any order; or take a machine, which a host may also
    run on its clock.  Afterwards the recorder holds as many as it can of the last entries of the log,
    which consists of what it held before and of the entries of each tick (`Cpu.entries`). -/
theorem trace_is_recent_history {τ σ ε : Type} [Add τ] [Sub τ] [Zero τ] [LE τ] [LT τ]
    [DecidableLE τ] [DecidableLT τ] :
    (∀ (outlet : Outlet σ ε) (rig : Rig σ) (actions : List HostAction) (r : Trace.Recorder),
      rig.cpu.trace = some r → ∃ r', (rig.run outlet actions).cpu.trace = some r' ∧
        r'.capacity = r.capacity ∧
        r'.entries none = (r.entries none ++ rig.log outlet actions).rtake r.capacity) ∧
    ∀ (env : Environment τ σ ε) (m : Machine τ σ) (actions : List MachineAction)
      (r : Trace.Recorder), m.rig.cpu.trace = some r →
      ∃ r', (m.history (Machine.act env) actions).1.rig.cpu.trace = some r' ∧
        r'.capacity = r.capacity ∧
        r'.entries none = (r.entries none ++ m.log env actions).rtake r.capacity := by
  constructor
  · intro outlet rig actions r hr
    exact Trace.entries_of_extended (hr ▸ rig.trace_run actions)
  · intro env m actions r hr
    exact Trace.entries_of_extended (hr ▸ m.trace_history actions)

/-- A recorder for two entries, at the entry of an interrupt between ticks by hand; and one for three,
    on a machine that is run to a byte which is no instruction, with the timer in between. -/
theorem trace_is_recent_history_of_interrupt_and_fault :
    let rig : Rig Unit := {
      cpu := {
        processor := {
          registers := ⟨#v[0, 0, 0, 0, 0, 1, 0, 0xf8]⟩, memory := .holding [0x04, 0x00, 0x05, 0x1b] }
        trace := some (.empty 2 (by decide)) }
      host := () }
    let env : Environment Int Int String := ⟨.silent Int String, id, fun s d => (s + d, [])⟩
    let m : Machine Int Int := {
      rig := {
        cpu := {
          processor := { memory := .holding [0x04, 0x00, 0x05, 0xff] }
          trace := some (.empty 3 (by decide)) }
        host := 0 }
      tickInterval := 2
      timerInterval := 3 }
    (∃ r', (rig.run (.silent Unit String) [.poke 9 9, .tick, .raise 0, .tick]).cpu.trace = some r' ∧
      r'.entries none = [
        ⟨0, some 0x04, "LDI", [0, 0, 0, 0, 0, 1, 0, 0xf8], none, true, false, ""⟩,
        ⟨3, none, "", [5, 0, 0, 0, 0, 1, 1, 0xf8], none, true, false, "irq0"⟩]) ∧
    ∃ r', (m.history (Machine.act env) [.raise 3, .run 9]).1.rig.cpu.trace = some r' ∧
      r'.entries none = [
        ⟨0, some 0x04, "LDI", [0, 0, 0, 0, 0, 0, 8, 0xf8], none, true, false, ""⟩,
        ⟨3, some 0xff, "", [5, 0, 0, 0, 0, 0, 9, 0xf8], none, true, false, ""⟩,
        ⟨3, some 0xff, "", [5, 0, 0, 0, 0, 0, 9, 0xf8], none, true, true, "fault"⟩] := by
  intro rig env m
  obtain ⟨hrig, _⟩ := @trace_is_recent_history Int Unit String _ _ _ _ _ _ _
  obtain ⟨_, hmachine⟩ := @trace_is_recent_history Int Int String _ _ _ _ _ _ _
  obtain ⟨r, hr, _, hentries⟩ := hrig (.silent Unit String) rig
    [.poke 9 9, .tick, .raise 0, .tick] _ rfl
  obtain ⟨r', hr', _, hentries'⟩ := hmachine env m [.raise 3, .run 9] _ rfl
  exact ⟨⟨r, hr, hentries.trans (by decide +kernel)⟩, r', hr', hentries'.trans (by decide +kernel)⟩

end Ls8
