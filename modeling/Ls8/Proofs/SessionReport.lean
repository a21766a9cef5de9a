import Ls8.Proofs.RunReport
import Ls8.Proofs.Trace.Calls
import Ls8.Proofs.Transparency

/-
  What a session prints, and the status it returns.

  A session whose program can be loaded runs a machine whose processor has not halted, so that its run
  reports as any other does; what is left is to read the report off the session.

  1. **The start** (`Started`).  The machine of a session has a fresh processor with a program in its
     memory, no fault, and an empty recorder if a trace is asked for.  Loading has told of the program,
     which is printed nowhere.

  2. **The lines** (`Started.finalLines`).  A recorder prints what it holds, which is the end of the
     log; without a fault nothing is printed, and without a recorder there is nothing to print.

  Main statement: `session_reports`.
-/

namespace Ls8.CommandLine

variable {σ : Type}

/-- **The machine of a session before its run:** it is fresh, but for its memory. -/
structure Started (n : Int) (m : Machine Seconds σ) : Prop where
  tickInterval : ¬ m.tickInterval ≤ 0
  timerInterval : ¬ m.timerInterval ≤ 0
  clock : m.clock = {}
  running : m.rig.cpu.processor.halted = false
  fault : m.rig.cpu.fault = none
  reports : m.rig.reports = []
  texts : m.rig.texts = []
  untraced : n ≤ 0 → m.rig.cpu.trace = none
  traced : 0 < n → ∃ hpos, m.rig.cpu.trace = some (.empty n.toNat hpos)

/-- What a loaded program leaves of a machine. -/
theorem load_of_ok {m : Machine Seconds σ} {bytes : List UInt8} {name : String}
    {image : ProgramImage} (h : (m.load bytes name).2 = .ok image) :
    ∃ memory, (m.load bytes name).1 = { m with
      rig := Rig.did { m.rig with
        cpu := m.rig.cpu.withProcessor { m.rig.cpu.processor with memory := memory } }
          (.diagnostic image.report) } := by
  rw [Machine.load] at h ⊢
  simp only at h ⊢
  split at h
  · obtain rfl := Except.ok.inj h
    exact ⟨_, rfl⟩
  · cases h

/-- **A loaded program is ready to run.** -/
theorem started_of_machine {o : Options} {host : σ} {m : Machine Seconds σ} {n : Int}
    {bytes : List UInt8} {image : ProgramImage} (hmachine : o.machine host = .ok m)
    (htrace : o.trace = some n) (hload : (m.load bytes o.program.stem).2 = .ok image) :
    Started n (m.load bytes o.program.stem).1 := by
  obtain ⟨a, b, n', trace, htick, htimer, hn, hrecorder, rfl⟩ := settings_of_machine hmachine
  obtain rfl : n' = n := by
    rw [htrace, checkTrace] at hn
    split at hn
    · cases hn
    · exact (Except.ok.inj hn).symm
  obtain ⟨memory, hloaded⟩ := load_of_ok hload
  rw [hloaded]
  rw [Trace.Recorder.createIfPositive] at hrecorder
  constructor
  case tickInterval => exact checkInterval_eq_ok htick
  case timerInterval => exact checkInterval_eq_ok htimer
  case untraced =>
    intro hle
    rw [if_neg (by omega)] at hrecorder
    exact (Except.ok.inj hrecorder).symm
  case traced =>
    intro hpos
    rw [if_pos hpos] at hrecorder
    cases hcreated : Trace.Recorder.create n' with
    | error e =>
      rw [hcreated] at hrecorder
      cases hrecorder
    | ok r =>
      obtain ⟨_, hcapacity, rfl⟩ := Trace.Recorder.create_eq_ok_iff.mp hcreated
      rw [hcreated] at hrecorder
      exact ⟨hcapacity, (Except.ok.inj hrecorder).symm⟩
  all_goals rfl

/-- The lines of the last entries of a log, at most `n` of them, the oldest first. -/
def lastLines (n : Int) (log : List Trace.Entry) : List String :=
  if 0 < n then (log.rtake (min n.toNat log.length)).map Trace.Entry.line else []

/-- **What is printed after a run** that has faulted. -/
theorem Started.finalLines {n : Int} {m : Machine Seconds σ} (h : Started n m)
    (env : Environment Seconds σ Failure) (fuel : Nat) {f : Fault}
    (hfault : (m.run env fuel).1.rig.cpu.fault = some f) :
    finalLines (m.run env fuel).1 =
      lastLines n ((m.firings env fuel).flatMap (Machine.firingEntries env)) := by
  have htrace := Machine.trace_run env fuel m
  rw [CommandLine.finalLines, hfault, lastLines]
  by_cases hpos : 0 < n
  · obtain ⟨hcapacity, hempty⟩ := h.traced hpos
    rw [hempty] at htrace
    rw [if_pos hpos, htrace]
    show (Trace.Recorder.entries _ none).map Trace.Entry.line = _
    rw [Trace.Recorder.entries_recorded hcapacity, Trace.kept, Nat.min_comm]
  · rw [h.untraced (by omega)] at htrace
    rw [if_neg hpos, htrace]
    rfl

/-! ## Sessions -/

section Session
variable {surroundings : Surroundings} {env : Environment Seconds σ Failure} {fuel : Nat}
variable {arguments : List String} {host : σ} {o : Options} {m : Machine Seconds σ}

/-- **A session whose run returns** prints what the machine has put out and reported, and then the
    trace. -/
theorem session_of_returned (harguments : readArguments arguments = .ok (.run o))
    (hprepared : prepare o (surroundings.find o.program) host = .ok m)
    (hreturned : (m.run env fuel).2 = none) :
    session (.ofSetting none) surroundings env fuel arguments host =
      ⟨.returned (status (m.run env fuel).1), printed (m.run env fuel).1.rig.texts,
        printed ((m.run env fuel).1.rig.reports ++ finalLines (m.run env fuel).1),
        (m.run env fuel).1.rig.host⟩ := by
  have hrun : m.run env fuel = ((m.run env fuel).1, none) := by rw [← hreturned]
  have houtput (effects : List Effect) :
      effects.flatMap outputLines = effects.filterMap Effect.output? := by
    rw [List.filterMap_eq_flatMap_toList]
    exact List.flatMap_congr fun e _ => by cases e <;> rfl
  rw [session, harguments]
  simp only [hprepared]
  rw [hrun]
  simp only [conclude, houtput]
  rw [← Rig.errorLines_none]
  rfl

/-- **A session that ends and is not interrupted** is one whose run returns. -/
theorem returned_of_ending (hsleeps : env.SleepsOnly) (hinterrupts : env.FailsOnly (· = .interrupt))
    (harguments : readArguments arguments = .ok (.run o))
    (hprepared : prepare o (surroundings.find o.program) host = .ok m)
    (htick : ¬ m.tickInterval ≤ 0) (htimer : ¬ m.timerInterval ≤ 0)
    (hidle : m.clock.running = false)
    (hended : (session (.ofSetting none) surroundings env fuel arguments host).ending ≠
      .cut .exhausted)
    (hcalm : (session (.ofSetting none) surroundings env fuel arguments host).ending ≠
      .returned 130) :
    (m.run env fuel).2 = none := by
  rw [session, harguments] at hended hcalm
  simp only [hprepared] at hended hcalm
  cases hfailure : (m.run env fuel).2 with
  | none => rfl
  | some i =>
    have hrun : m.run env fuel = ((m.run env fuel).1, some i) := by rw [← hfailure]
    rw [hrun] at hended hcalm
    rcases Machine.interruption_run hsleeps hinterrupts fuel htick htimer hidle hfailure with
      rfl | ⟨_, rfl, rfl⟩
    · exact absurd rfl hended
    · exact absurd rfl hcalm

end Session

/-- **What a session reports.**  Let the arguments ask for a run of a program file that can be loaded,
    with options that are accepted and a trace of `n` entries, let no category of diagnostics be
    enabled, and let the host ask for nothing but failures, all of them interrupts from the keyboard.
    Suppose that the session ends and is not interrupted.

    Then its status is 0 or 1: 0 exactly if the last firing of its run executed the halt instruction and
    there is no fault, 1 exactly if there is one.  Its output is the texts of the prints, in the order of
    the ticks that executed them, with a line for each.  Without a fault nothing is printed on the error
    stream; with one, its message is, and after it, if a trace is kept, the lines of the last entries of
    the log, the oldest first, of which the last one is that of the fault. -/
theorem session_reports {surroundings : Surroundings} {env : Environment Seconds σ Failure}
    (hsleeps : env.SleepsOnly) (hprints : env.PrintsOnly)
    (hinterrupts : env.FailsOnly (· = .interrupt)) (fuel : Nat) {arguments : List String} {host : σ}
    {o : Options} {m : Machine Seconds σ} {n : Int} {bytes : List UInt8} {image : ProgramImage}
    (harguments : readArguments arguments = .ok (.run o))
    (hmachine : o.machine host = .ok m) (htrace : o.trace = some n)
    (hfile : surroundings.find o.program = .file bytes)
    (hload : (loadFile bytes 0 o.program.stem .full).result = .ok image)
    (hended : (session (.ofSetting none) surroundings env fuel arguments host).ending ≠
      .cut .exhausted)
    (hcalm : (session (.ofSetting none) surroundings env fuel arguments host).ending ≠
      .returned 130) :
    let s := session (.ofSetting none) surroundings env fuel arguments host
    let loaded := (m.load bytes o.program.stem).1
    let firings := loaded.firings env fuel
    let log := firings.flatMap (Machine.firingEntries env)
    let after := (loaded.run env fuel).1.rig.cpu
    (s.ending = .returned 0 ∨ s.ending = .returned 1) ∧ after.processor.halted = true ∧
    (∃ earlier rig, firings = earlier ++ [(.tick, rig)] ∧
      (s.ending = .returned 0 ↔ rig.cpu.Executes .hlt ∧ after.fault = none)) ∧
    (s.ending = .returned 1 ↔ after.fault.isSome) ∧
    s.output = printed (firings.flatMap Machine.firingTexts) ∧
    (after.fault = none → s.errors = "") ∧
    ∀ f, after.fault = some f →
      s.errors = printed (f.message :: lastLines n log) ∧
      log.getLast? = some (after.processor.entry (some after.processor.ir) "" "fault") := by
  intro s loaded firings log after
  have hload' : (m.load bytes o.program.stem).2 = .ok image := by
    obtain ⟨_, _, _, _, _, hm⟩ := exists_of_machine hmachine
    rw [snd_load, hm]
    exact hload
  have hstarted : Started n loaded := started_of_machine hmachine htrace hload'
  have hprepared : prepare o (surroundings.find o.program) host = .ok loaded := by
    rw [hfile]
    exact prepare_of_ok hmachine hload'
  have hidle : loaded.clock.running = false := by rw [hstarted.clock]
  have hempty : loaded.clock.events = .empty := by rw [hstarted.clock]
  have hreturned := returned_of_ending hsleeps hinterrupts harguments hprepared
    hstarted.tickInterval hstarted.timerInterval hidle hended hcalm
  have hs : s = _ := session_of_returned harguments hprepared hreturned
  -- the run has halted the processor, and reports why
  have hsettled : loaded.rig.Settled := by
    refine ⟨fun hsome => ?_, ?_⟩
    · rw [hstarted.fault] at hsome
      cases hsome
    · rw [hstarted.reports, hstarted.fault]
      rfl
  have hhalted := Machine.halted_of_returned hsleeps hprints fuel hstarted.tickInterval
    hstarted.timerInterval hstarted.running hidle hempty hreturned
  obtain ⟨_, ⟨earlier, rig, hfirings, hcause⟩, hclosed⟩ :=
    Machine.report_of_halted env fuel hsettled hstarted.running hhalted
  have hreports := (Machine.orderly_run env fuel hsettled hstarted.running).settled.reports
  change (loaded.run env fuel).1.rig.reports = (after.fault.map Fault.message).toList at hreports
  have htexts : (loaded.run env fuel).1.rig.texts = firings.flatMap Machine.firingTexts := by
    rw [Machine.texts_run, hstarted.texts, List.nil_append]
  have hending : s.ending = .returned (if after.fault.isSome then 1 else 0) := by rw [hs]; rfl
  have herrors : s.errors = printed ((loaded.run env fuel).1.rig.reports ++
    finalLines (loaded.run env fuel).1) := by rw [hs]
  have houtput : s.output = printed (firings.flatMap Machine.firingTexts) := by rw [hs, htexts]
  rw [hending, houtput, herrors, hreports]
  cases hfault : after.fault with
  | none =>
    have hnothing : finalLines (loaded.run env fuel).1 = [] := by
      rw [finalLines, show (loaded.run env fuel).1.rig.cpu.fault = none from hfault]
    rw [hnothing]
    have hhlt : rig.cpu.Executes .hlt := hcause.mpr hfault
    refine ⟨.inl rfl, hhalted, ⟨earlier, rig, hfirings, ?_⟩, ?_, rfl, fun _ => rfl, ?_⟩
    · exact ⟨fun _ => ⟨hhlt, rfl⟩, fun _ => rfl⟩
    · exact ⟨nofun, nofun⟩
    · exact fun f hf => nomatch hf
  | some f =>
    refine ⟨.inr rfl, hhalted, ⟨earlier, rig, hfirings, ?_⟩, ?_, rfl, nofun, ?_⟩
    · exact ⟨nofun, nofun⟩
    · exact ⟨fun _ => rfl, fun _ => rfl⟩
    · rintro _ ⟨rfl⟩
      rw [hstarted.finalLines env fuel hfault]
      exact ⟨rfl, hclosed (Option.isSome_of_eq_some hfault)⟩

/-- A program that prints and halts, and one that prints and runs into a byte that is no instruction, with
    a trace of two entries. -/
theorem session_reports_of_two_programs :
    let env : Environment Seconds Seconds Failure := ⟨.silent _ _, id, fun now d => (now + d, [])⟩
    let holding (text : String) : Surroundings :=
      { files := [("p", Text.utf8Bytes text)], depth := 1 }
    let halting := session (.ofSetting none)
      (holding "00000100 # LDI R0,77\n0\n01001101\n110 # PRN R0\n0\n00011011") env 9 ["p"] 0
    let faulting := session (.ofSetting none) (holding "110 # PRN R0\n0\n11111111") env 9
      ["p", "--trace", "2"] 0
    let registers := "R0=00 R1=00 R2=00 R3=00 R4=00 R5=00 R6=00 R7=F8 "
    halting.ending = .returned 0 ∧ halting.output = "77\n" ∧ halting.errors = "" ∧
      faulting.ending = .returned 1 ∧ faulting.output = "0\n" ∧
      faulting.errors = printed ["Invalid instruction at address 0x02: 11111111",
        "pc=02 opcode=FF ?    " ++ registers ++ "EQ=- flags=-",
        "pc=02 opcode=FF ?    " ++ registers ++ "EQ=- flags=HALT,fault"] := by
  intro env holding halting faulting registers
  have hsleeps : env.SleepsOnly := fun _ _ _ hr => absurd hr List.not_mem_nil
  have hprints : env.PrintsOnly := fun _ _ _ hr => absurd hr List.not_mem_nil
  have hinterrupts : env.FailsOnly (· = .interrupt) :=
    ⟨fun _ _ _ hr => absurd hr List.not_mem_nil, fun _ _ _ hr => absurd hr List.not_mem_nil⟩
  let plain : Options := { program := .parse "p" }
  let traced : Options := { plain with trace := some 2 }
  let bare : Machine Seconds Seconds := .ofMemory .full 0.001 1.0 none 0
  let recording : Machine Seconds Seconds :=
    .ofMemory .full 0.001 1.0 (some (.empty 2 (by decide))) 0
  have hplain : plain.machine (0 : Seconds) = .ok bare := rfl
  have htraced : traced.machine (0 : Seconds) = .ok recording := rfl
  have hread : readArguments ["p"] = .ok (.run plain) := rfl
  have hread' : readArguments ["p", "--trace", "2"] = .ok (.run traced) := rfl
  have hfound (text : String) : (holding text).find (.parse "p") = .file (Text.utf8Bytes text) := rfl
  have hloads (text : String) (h : (loadFile (Text.utf8Bytes text) 0 "p" .full).result.isOk = true) :
      ∃ image, (loadFile (Text.utf8Bytes text) 0 "p" .full).result = .ok image := by
    cases hresult : (loadFile (Text.utf8Bytes text) 0 "p" .full).result with
    | ok image => exact ⟨image, rfl⟩
    | error e =>
      rw [hresult] at h
      cases h
  let status? : Ending → Option Nat
    | .returned status => some status
    | _ => none
  have hstatus {ending : Ending} {status : Nat} (h : status? ending = some status) :
      ending = .returned status := by
    cases ending with
    | returned k => exact congrArg Ending.returned (Option.some.inj h)
    | exited | refused | cut => cases h
  have hzero : halting.ending = .returned 0 := hstatus (by decide +kernel)
  have hone : faulting.ending = .returned 1 := hstatus (by decide +kernel)
  obtain ⟨_, hhalts⟩ :=
    hloads "00000100 # LDI R0,77\n0\n01001101\n110 # PRN R0\n0\n00011011" (by decide +kernel)
  obtain ⟨_, hfaults⟩ := hloads "110 # PRN R0\n0\n11111111" (by decide +kernel)
  obtain ⟨_, _, ⟨_, _, _, hcause⟩, _, houtput, hquiet, _⟩ :=
    session_reports hsleeps hprints hinterrupts 9 hread hplain rfl (hfound _) hhalts
      (fun h => nomatch hzero.symm.trans h) (fun h => nomatch hzero.symm.trans h)
  obtain ⟨_, _, _, _, houtput', _, hreported⟩ :=
    session_reports hsleeps hprints hinterrupts 9 hread' htraced rfl (hfound _) hfaults
      (fun h => nomatch hone.symm.trans h) (fun h => nomatch hone.symm.trans h)
  have hnone := (hcause.mp hzero).2
  obtain ⟨herrors, _⟩ := hreported (.illegalOpcode 2 0xff) (by decide +kernel)
  exact ⟨hzero, houtput.trans (by decide +kernel), hquiet hnone, hone,
    houtput'.trans (by decide +kernel), herrors.trans (by decide +kernel)⟩

end Ls8.CommandLine
