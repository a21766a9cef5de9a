import Ls8.CommandLine.Session
import Ls8.Proofs.Bounds
import Ls8.Proofs.Halting
import Ls8.Proofs.MachineEnd
import Ls8.Proofs.Program.LineEnds

/-
  How a session at the command line ends.

  Once the arguments are read and checked and there is a program file, what the file holds decides: a
  program that cannot be loaded is a usage error, and one that can be loaded is run, until it ends by
  itself or is interrupted from the keyboard.  A session catches no other failure of its host, so the
  host is taken to have none (`Environment.FailsOnly`).

  1. **The run** (`interruption_run`).  The clock accepts both sources, since their intervals have been
     checked, and after that only the host can make it fail: a fault of the processor is no failure of
     the clock.

  2. **The load** (`not_utf8_of_encoding`).  Of all reasons why a program cannot be loaded, one is no
     usage error: the file is not UTF-8.

  Main statement: a session with a program file in UTF-8 ends with a status or as a usage error
  (`session_ends`).
-/

namespace Ls8

variable {τ σ ε : Type}

/-! ## Runs -/

/-- **A host that is at most interrupted while it sleeps:** it asks for nothing there, unless it
    fails. -/
def Environment.SleepsOnly (env : Environment τ σ ε) : Prop :=
  ∀ host d, ∀ r ∈ (env.sleep host d).2, ∃ reason, r = .fail reason

/-- **A host that fails for such reasons only,** while it takes a text and while it sleeps. -/
structure Environment.FailsOnly (env : Environment τ σ ε) (P : ε → Prop) : Prop where
  output : ∀ host text reason, .fail reason ∈ (env.output.deliver host text).2 → P reason
  sleep : ∀ host d reason, .fail reason ∈ (env.sleep host d).2 → P reason

namespace Machine

/-- The host has failed for such a reason, or there was no fuel left. -/
def ByHost (P : ε → Prop) (i : Interruption ε) : Prop :=
  i = .exhausted ∨ ∃ reason, P reason ∧ i = .failed (.host reason)

/-- Work that fails only by the host. -/
abbrev FailsByHost {α : Type} (P : ε → Prop)
    (work : Clock.Work τ Beat (Rig σ) (HostFailure ε) α) : Prop :=
  Clock.Leaves (fun _ => True) (fun _ => True) (fun i _ => ByHost P i) work

section Routines
variable [Add τ] [Zero τ] [LE τ] [LT τ] [DecidableLE τ] [DecidableLT τ]
variable {env : Environment τ σ ε} {P : ε → Prop}
variable (pending : Clock.Work τ Beat (Rig σ) (HostFailure ε) Nat)
variable (started : Clock.Work τ Beat (Rig σ) (HostFailure ε) Unit)

theorem failsByHost_carryOut {failure : Option ε} (h : ∀ reason, failure = some reason → P reason)
    (effects : List Effect) :
    FailsByHost P ((carryOut failure effects).run (clockHost env) pending started) := by
  induction effects with
  | nil =>
    cases failure with
    | none => exact fun _ _ => trivial
    | some reason => exact fun _ _ => .inr ⟨reason, h reason rfl, rfl⟩
  | cons e rest ih =>
    cases e with
    | stopClock => exact fun s _ => ih (s.1.stop, _) trivial
    | output | report | diagnostic => exact fun s _ => ih (s.1, s.2.did _) trivial

theorem failsByHost_serve {requests : List (Request ε)}
    (h : ∀ r ∈ requests, ∃ reason, r = .fail reason)
    (hreasons : ∀ reason, .fail reason ∈ requests → P reason) :
    FailsByHost P ((serve requests).run (clockHost env) pending started) := by
  cases requests with
  | nil => exact fun _ _ => trivial
  | cons r rest =>
    obtain ⟨reason, rfl⟩ := h r List.mem_cons_self
    exact fun _ _ => .inr ⟨reason, hreasons reason List.mem_cons_self, rfl⟩

/-- **The clock of a machine fails only by the host.** -/
theorem upholds_byHost (henv : env.SleepsOnly) (hfails : env.FailsOnly P) :
    (clockHost env).Upholds (fun _ => True) fun i _ => ByHost P i where
  fire := by
    rintro c rig e rest now pending started - -
    rintro _ rfl
    cases e.source.command with
    | tick =>
      -- what leaves a tick is a failure of the host while it took a text
      have hfailure : ∀ reason, (rig.cpu.tick env.output rig.host).failure = some reason →
          P reason := by
        intro reason h
        obtain ⟨text, before, after, _, hrequests, _⟩ := Cpu.failure_of_tick h
        refine hfails.output rig.host text reason ?_
        rw [hrequests]
        exact List.mem_append_right _ List.mem_cons_self
      exact failsByHost_carryOut pending started hfailure _ (_, _) trivial
    | timer => trivial
  sleep := by
    rintro d pending started ⟨c, rig⟩ -
    exact failsByHost_serve pending started (henv rig.host d) (hfails.sleep rig.host d) (c, _) trivial
  exhausted := fun _ _ => .inl rfl

end Routines

variable [Add τ] [Sub τ] [Zero τ] [LE τ] [LT τ] [DecidableLE τ] [DecidableLT τ]

/-- Starting a clock that is not running. -/
theorem leaves_start_byHost {env : Environment τ σ ε} {P : ε → Prop} (henv : env.SleepsOnly)
    (hfails : env.FailsOnly P) (fuel : Nat) :
    Clock.Leaves (fun s => s.1.running = false) (fun _ => True) (fun i _ => ByHost P i)
      (Clock.start (clockHost env) fuel) := by
  intro s hidle
  have hleft := Clock.leaves_start (upholds_byHost henv hfails) fuel s ⟨hidle, trivial⟩
  revert hleft
  cases Clock.start (clockHost env) fuel s with
  | ok u t => exact fun _ => trivial
  | error i t =>
    rintro ⟨_, hcause, _⟩
    exact hcause

/-- **A run is interrupted by the host** or out of fuel, and by nothing else. -/
theorem interruption_run {env : Environment τ σ ε} {P : ε → Prop} (henv : env.SleepsOnly)
    (hfails : env.FailsOnly P) (fuel : Nat) {m : Machine τ σ} (htick : ¬ m.tickInterval ≤ 0)
    (htimer : ¬ m.timerInterval ≤ 0) (hidle : m.clock.running = false) {i : Interruption ε}
    (h : (m.run env fuel).2 = some i) : ByHost P i := by
  by_cases hhalted : m.rig.cpu.processor.halted = true
  · rw [run_of_halted env fuel hhalted] at h
    cases h
  · rw [run, perform, perform_runTask env fuel htick htimer (Bool.eq_false_iff.mpr hhalted)] at h
    have hstopped : (m.provided env).running = false := hidle
    cases hstarted : Clock.start (clockHost env) fuel (m.provided env, m.rig) with
    | ok u t =>
      rw [hstarted] at h
      cases h
    | error j t =>
      rw [hstarted] at h
      rw [← Option.some.inj h]
      exact (leaves_start_byHost henv hfails fuel).of_error hstopped hstarted

end Machine

/-! ## Loads -/

section Loads
variable {bytes : List UInt8} {start : Int} {name : String} {m : Memory}

/-- No line is refused for its encoding. -/
theorem loadLines_ne_encoding (ls : List (List Char)) (n : Nat) (m : Memory) (image : ProgramImage) :
    (loadLines n ls m image).result ≠ .error .encoding := by
  induction ls generalizing n m image with
  | nil => rintro ⟨⟩
  | cons line ls ih =>
    rw [loadLines]
    cases SourceLine.ofChars line with
    | nothing => exact ih (n + 1) m image
    | junk text => rintro ⟨⟩
    | byte b =>
      simp only
      split
      · rintro ⟨⟩
      · cases m.store (image.start + image.size) b with
        | ok m => exact ih (n + 1) m _
        | error e => rintro ⟨⟩

theorem loadFrom_ne_encoding (ls : List (List Char)) :
    (loadFrom ls start name m).result ≠ .error .encoding := by
  rw [loadFrom]
  split
  · exact loadLines_ne_encoding ls 1 m _
  · rintro ⟨⟩

/-- **A file that is refused for its encoding** is not UTF-8. -/
theorem not_utf8_of_encoding (h : (loadFile bytes start name m).result = .error .encoding) :
    ¬ ∃ text, bytes = Text.utf8Bytes text := by
  rintro ⟨text, rfl⟩
  rw [loadFile_utf8Bytes] at h
  exact loadFrom_ne_encoding _ h

/-- **A file that can be loaded** is UTF-8. -/
theorem exists_text_of_loaded {image : ProgramImage}
    (h : (loadFile bytes start name m).result = .ok image) : ∃ text, bytes = Text.utf8Bytes text := by
  have hbad (cs : List Char) : (loadUntilBad cs start name m).result ≠ .ok image := by
    rw [loadUntilBad]
    simp only
    cases (loadFrom _ start name m).result <;> rintro ⟨⟩
  rw [loadFile] at h
  split at h
  · rename_i cs hcomplete
    exact ⟨String.ofList cs, Text.decodeUtf8_eq_complete_iff.mp hcomplete⟩
  · exact absurd h (hbad _)
  · exact absurd h (hbad _)

end Loads

/-! ## Sessions -/

namespace CommandLine

/-- **An ending that a caller can rely on:** a status, or a usage error. -/
def Ending.Proper : Ending → Prop
  | .returned status => status = 0 ∨ status = 1 ∨ status = 130
  | .exited code => code = 2
  | .refused _ | .cut _ => False

variable {σ : Type}

theorem checkInterval_eq_ok {interval : Option Seconds} {seconds : Seconds}
    (h : checkInterval interval = .ok seconds) : ¬ seconds ≤ 0 := by
  cases interval with
  | none => cases h
  | some value =>
    rw [checkInterval] at h
    split at h
    · cases h
    · rwa [← Except.ok.inj h]

/-- **The machine that checked options ask for:** every option is in order. -/
theorem settings_of_machine {o : Options} {host : σ} {m : Machine Seconds σ}
    (h : o.machine host = .ok m) : ∃ tickInterval timerInterval n trace,
      checkInterval o.tickInterval = .ok tickInterval ∧
      checkInterval o.timerInterval = .ok timerInterval ∧ checkTrace o.trace = .ok n ∧
      Trace.Recorder.createIfPositive n = .ok trace ∧
      m = .ofMemory .full tickInterval timerInterval trace host := by
  rw [Options.machine, Options.check] at h
  cases htick : checkInterval o.tickInterval with
  | error e =>
    rw [htick] at h
    cases h
  | ok a =>
    cases htimer : checkInterval o.timerInterval with
    | error e =>
      rw [htick, htimer] at h
      cases h
    | ok b =>
      rw [htick, htimer] at h
      cases hn : checkTrace o.trace with
      | error e =>
        rw [hn] at h
        cases h
      | ok n =>
        rw [hn] at h
        have hstorage : ((Trace.Recorder.createIfPositive n).mapError Refusal.trace >>= fun trace =>
          pure (Machine.ofMemory .full a b trace host)) = .ok m := h
        cases htrace : Trace.Recorder.createIfPositive n with
        | error e =>
          rw [htrace] at hstorage
          cases hstorage
        | ok trace =>
          rw [htrace] at hstorage
          exact ⟨a, b, n, trace, rfl, rfl, rfl, htrace, (Except.ok.inj hstorage).symm⟩

/-- Its intervals are positive, as far as they can be compared. -/
theorem exists_of_machine {o : Options} {host : σ} {m : Machine Seconds σ}
    (h : o.machine host = .ok m) : ∃ tickInterval timerInterval trace,
      ¬ tickInterval ≤ 0 ∧ ¬ timerInterval ≤ 0 ∧
      m = .ofMemory .full tickInterval timerInterval trace host := by
  obtain ⟨a, b, _, trace, htick, htimer, _, _, hm⟩ := settings_of_machine h
  exact ⟨a, b, trace, checkInterval_eq_ok htick, checkInterval_eq_ok htimer, hm⟩

/-- Loading into a machine succeeds or fails as loading into its memory does. -/
theorem snd_load (m : Machine Seconds σ) (bytes : List UInt8) (name : String) :
    (m.load bytes name).2 = (loadFile bytes 0 name m.rig.cpu.processor.memory).result := by
  rw [Machine.load]
  simp only
  cases (loadFile bytes 0 name m.rig.cpu.processor.memory).result <;> rfl

/-- Loading changes the rig of a machine only. -/
theorem exists_rig_load (m : Machine Seconds σ) (bytes : List UInt8) (name : String) :
    ∃ rig, (m.load bytes name).1 = { m with rig } := by
  rw [Machine.load]
  simp only
  cases (loadFile bytes 0 name m.rig.cpu.processor.memory).result with
  | ok image => exact ⟨_, rfl⟩
  | error e => exact ⟨_, rfl⟩

section Prepare
variable {o : Options} {host : σ} {m : Machine Seconds σ} {bytes : List UInt8}

/-- **A program that cannot be loaded** is a usage error, unless it is not UTF-8. -/
theorem prepare_of_error (hmachine : o.machine host = .ok m) {e : LoadError}
    (h : (m.load bytes o.program.stem).2 = .error e) :
    (e ≠ .encoding → prepare o (.file bytes) host =
      .error (.usage (.unloadable o.program e.message))) ∧
    (e = .encoding → prepare o (.file bytes) host = .error .encoding) := by
  have hload : m.load bytes o.program.stem = ((m.load bytes o.program.stem).1, .error e) := by
    rw [← h]
  rw [prepare, hmachine]
  simp only [bind, Except.bind]
  rw [hload]
  constructor
  · intro hne
    cases e with
    | encoding => exact absurd rfl hne
    | startOutside | malformed | tooLong | memory => rfl
  · rintro rfl
    rfl

/-- A program that can be loaded is in the machine. -/
theorem prepare_of_ok (hmachine : o.machine host = .ok m) {image : ProgramImage}
    (h : (m.load bytes o.program.stem).2 = .ok image) :
    prepare o (.file bytes) host = .ok (m.load bytes o.program.stem).1 := by
  have hload : m.load bytes o.program.stem = ((m.load bytes o.program.stem).1, .ok image) := by
    rw [← h]
  rw [prepare, hmachine]
  simp only [bind, Except.bind]
  rw [hload]
  rfl

end Prepare

/-- **A run that is at most interrupted** gives a status, if it has ended. -/
theorem ending_conclude (env : Environment Seconds σ Failure) (fuel : Nat) (m : Machine Seconds σ)
    {failure : Option (Machine.Interruption Failure)}
    (h : ∀ i, failure = some i → Machine.ByHost (· = .interrupt) i) :
    (∃ n, (conclude env fuel (m, failure)).2.1 = .returned n ∧ (n = 0 ∨ n = 1 ∨ n = 130)) ∨
      (conclude env fuel (m, failure)).2.1 = .cut .exhausted := by
  cases failure with
  | none =>
    refine .inl ⟨status m, rfl, ?_⟩
    rw [status]
    split
    · exact .inr (.inl rfl)
    · exact .inl rfl
  | some i =>
    rcases h i rfl with rfl | ⟨_, rfl, rfl⟩
    · exact .inr rfl
    · exact .inl ⟨130, rfl, .inr (.inr rfl)⟩

/-! ## The main statement -/

/-- **How a session with a program file ends.**  Let the arguments ask for a run of a program file, with
    options that are accepted, and let the host ask for nothing during a sleep unless it fails, and fail
    only because it is interrupted from the keyboard.

    1. If the program cannot be loaded, nothing is run, put out or asked of the host.  It is a usage
       error that says why, unless the program is refused for its encoding.
    2. If it can be loaded and the session ends, then with the status 0, 1 or 130.
    3. A program in UTF-8 is not refused for its encoding: with one, a session that ends does so
       properly.  Any other file cannot be loaded, and is refused or a usage error. -/
theorem session_ends (categories : Categories) {surroundings : Surroundings}
    {env : Environment Seconds σ Failure} (henv : env.SleepsOnly)
    (hinterrupts : env.FailsOnly (· = .interrupt)) (fuel : Nat) {arguments : List String} {host : σ}
    {o : Options} {m : Machine Seconds σ} {bytes : List UInt8}
    (harguments : readArguments arguments = .ok (.run o)) (hmachine : o.machine host = .ok m)
    (hfile : surroundings.find o.program = .file bytes) :
    let s := session categories surroundings env fuel arguments host
    let loaded := (loadFile bytes 0 o.program.stem .full).result
    (∀ e, loaded = .error e → s.output = "" ∧ s.host = host ∧
      (e ≠ .encoding → s.ending = .exited 2 ∧
        s.errors = complaint (o.program.text ++ ": " ++ e.message)) ∧
      (e = .encoding → s.ending = .refused .encoding ∧ s.errors = "")) ∧
    (∀ image, loaded = .ok image →
      (∃ status, s.ending = .returned status ∧ (status = 0 ∨ status = 1 ∨ status = 130)) ∨
        s.ending = .cut .exhausted) ∧
    ((∃ text, bytes = Text.utf8Bytes text) → s.ending.Proper ∨ s.ending = .cut .exhausted) ∧
    ((¬ ∃ text, bytes = Text.utf8Bytes text) →
      s.ending = .exited 2 ∨ s.ending = .refused .encoding) := by
  intro s loaded
  obtain ⟨a, b, trace, htick, htimer, hm⟩ := exists_of_machine hmachine
  have hload : (m.load bytes o.program.stem).2 = loaded := by
    rw [snd_load, hm]
    rfl
  have hsession : s = session categories surroundings env fuel arguments host := rfl
  rw [session, harguments] at hsession
  simp only [hfile] at hsession
  have hrefused (e : LoadError) (he : loaded = .error e) : s.output = "" ∧ s.host = host ∧
      (e ≠ .encoding → s.ending = .exited 2 ∧
        s.errors = complaint (o.program.text ++ ": " ++ e.message)) ∧
      (e = .encoding → s.ending = .refused .encoding ∧ s.errors = "") := by
    obtain ⟨husage, hencoding⟩ := prepare_of_error hmachine (hload.trans he)
    by_cases h : e = .encoding
    · rw [hencoding h] at hsession
      rw [hsession]
      exact ⟨rfl, rfl, fun hne => absurd h hne, fun _ => ⟨rfl, rfl⟩⟩
    · rw [husage h] at hsession
      rw [hsession]
      exact ⟨rfl, rfl, fun _ => ⟨rfl, rfl⟩, fun heq => absurd heq h⟩
  have hended (image : ProgramImage) (himage : loaded = .ok image) :
      (∃ status, s.ending = .returned status ∧ (status = 0 ∨ status = 1 ∨ status = 130)) ∨
        s.ending = .cut .exhausted := by
    rw [prepare_of_ok hmachine (hload.trans himage)] at hsession
    have hafter : ∀ i, ((m.load bytes o.program.stem).1.run env fuel).2 = some i →
        Machine.ByHost (· = .interrupt) i := by
      intro i hi
      obtain ⟨rig, hrig⟩ := exists_rig_load m bytes o.program.stem
      have hkept : (m.load bytes o.program.stem).1.tickInterval = a ∧
          (m.load bytes o.program.stem).1.timerInterval = b ∧
          (m.load bytes o.program.stem).1.clock.running = false := by
        rw [hrig, hm]
        exact ⟨rfl, rfl, rfl⟩
      obtain ⟨ha, hb, hidle⟩ := hkept
      exact Machine.interruption_run henv hinterrupts fuel (by rwa [ha]) (by rwa [hb]) hidle hi
    rw [hsession]
    exact ending_conclude env fuel _ hafter
  refine ⟨hrefused, hended, fun hutf8 => ?_, fun hnone => ?_⟩
  · cases hresult : loaded with
    | ok image =>
      rcases hended image hresult with ⟨status, hending, hstatus⟩ | hcut
      · rw [hending]
        exact .inl hstatus
      · exact .inr hcut
    | error e =>
      have hne : e ≠ .encoding := by
        rintro rfl
        exact not_utf8_of_encoding hresult hutf8
      obtain ⟨_, _, husage, _⟩ := hrefused e hresult
      rw [(husage hne).1]
      exact .inl rfl
  · cases hresult : loaded with
    | ok image => exact absurd (exists_text_of_loaded hresult) hnone
    | error e =>
      obtain ⟨_, _, husage, hencoding⟩ := hrefused e hresult
      by_cases h : e = .encoding
      · exact .inr (hencoding h).1
      · exact .inl (husage h).1

/-- A program that halts at once, behind a remark that is not ASCII, and a program that is none; and a
    host that is interrupted in its first sleep. -/
theorem session_ends_of_two_files :
    let sleeping (requests : List (Ls8.Request Failure)) : Environment Seconds Seconds Failure :=
      ⟨.silent _ _, id, fun now d => (now + d, requests)⟩
    let holding (text : String) : Surroundings :=
      { files := [("p", Text.utf8Bytes text)], depth := 1 }
    let halting := session .none (holding "# Übung\n00011011") (sleeping []) 9 ["p", "--trace", "3"] 0
    let interrupted := session .none (holding "# Übung\n00011011") (sleeping [.fail .interrupt]) 9
      ["p", "--trace", "3"] 0
    let malformed := session .none (holding "102\r\n") (sleeping []) 9 ["p"] 0
    (halting.ending.Proper ∨ halting.ending = .cut .exhausted) ∧
      (interrupted.ending.Proper ∨ interrupted.ending = .cut .exhausted) ∧
      malformed.ending = .exited 2 ∧ malformed.host = 0 ∧
      malformed.errors = complaint "p: line 1: expected up to 8 binary digits, got '102'" := by
  intro sleeping holding halting interrupted malformed
  have hsleeps {requests : List (Ls8.Request Failure)}
      (h : ∀ r ∈ requests, r = .fail .interrupt) : (sleeping requests).SleepsOnly :=
    fun _ _ r hr => ⟨.interrupt, h r hr⟩
  have hinterrupts {requests : List (Ls8.Request Failure)}
      (h : ∀ r ∈ requests, r = .fail .interrupt) :
      (sleeping requests).FailsOnly (· = .interrupt) :=
    ⟨fun _ _ _ hr => absurd hr List.not_mem_nil, fun _ _ _ hr => Ls8.Request.fail.inj (h _ hr)⟩
  have hcalm : ∀ r ∈ ([] : List (Ls8.Request Failure)), r = .fail .interrupt :=
    fun _ hr => absurd hr List.not_mem_nil
  have hbroken : ∀ r ∈ [Ls8.Request.fail Failure.interrupt], r = .fail .interrupt :=
    fun _ hr => List.mem_singleton.mp hr
  let plain : Options := { program := .parse "p" }
  let traced : Options := { plain with trace := some 3 }
  have hplain : readArguments ["p"] = .ok (.run plain) := rfl
  have htraced : readArguments ["p", "--trace", "3"] = .ok (.run traced) := rfl
  obtain ⟨m, hm⟩ : ∃ m, traced.machine (0 : Seconds) = .ok m := ⟨_, rfl⟩
  obtain ⟨m', hm'⟩ : ∃ m', plain.machine (0 : Seconds) = .ok m' := ⟨_, rfl⟩
  have hfound (text : String) : (holding text).find (.parse "p") = .file (Text.utf8Bytes text) := rfl
  obtain ⟨_, _, hutf8, _⟩ := session_ends .none (hsleeps hcalm) (hinterrupts hcalm) 9 htraced hm
    (hfound "# Übung\n00011011")
  obtain ⟨_, _, hutf8', _⟩ := session_ends .none (hsleeps hbroken) (hinterrupts hbroken) 9 htraced hm
    (hfound "# Übung\n00011011")
  obtain ⟨hrefused, _⟩ := session_ends .none (hsleeps hcalm) (hinterrupts hcalm) 9 hplain hm'
    (hfound "102\r\n")
  obtain ⟨_, hhost, husage, _⟩ := hrefused (.malformed 1 "102") (by decide +kernel)
  obtain ⟨hexited, herrors⟩ := husage nofun
  have hmessage : plain.program.text ++ ": " ++ (LoadError.malformed 1 "102").message =
      "p: line 1: expected up to 8 binary digits, got '102'" := by decide +kernel
  rw [hmessage] at herrors
  exact ⟨hutf8 ⟨_, rfl⟩, hutf8' ⟨_, rfl⟩, hexited, hhost, herrors⟩

/-- An interrupt from the keyboard gives a status, another failure does not. -/
example :
    let broken (reason : Failure) : Environment Seconds Seconds Failure :=
      ⟨.silent _ _, id, fun now d => (now + d, [.fail reason])⟩
    let m : Machine Seconds Seconds := .ofMemory .full 0.001 1.0 none 0
    let concluded (reason : Failure) := (conclude (broken reason) 9 (m.run (broken reason) 9)).2.1
    concluded .interrupt = .returned 130 ∧
      concluded (.other "broken") = .cut (.failed (.host (.other "broken"))) :=
  ⟨rfl, rfl⟩

/-- **A file that is not UTF-8** is refused, which is neither a status nor a usage error. -/
theorem session_refuses_stray_byte :
    let env : Environment Seconds Seconds Failure := ⟨.silent _ _, id, fun now d => (now + d, [])⟩
    let surroundings : Surroundings := { files := [("p", [0xff])], depth := 1 }
    let s := session .none surroundings env 9 ["p"] 0
    s.ending = .refused .encoding ∧ ¬ s.ending.Proper ∧ s.ending ≠ .cut .exhausted := by
  intro env surroundings s
  have hending : s.ending = .refused .encoding := by rfl
  rw [hending]
  exact ⟨rfl, id, nofun⟩

end CommandLine

end Ls8
