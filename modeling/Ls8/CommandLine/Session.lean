import Ls8.CommandLine.Options
import Ls8.CommandLine.Usage
import Ls8.Machine

/-
  A session at the command line: from the arguments to the exit status.

  A session reads its arguments, checks them, loads the program, runs the machine and says how it
  ended.  Every complaint about the arguments or the program text is a usage error with exit code 2.
  A run that ends by itself has status 0, or 1 if the processor faulted; then the trace is printed.
  A run that is interrupted from the keyboard has status 130.  Any other failure of the host is not
  caught.

  A session is three steps, `prepare`, the run, and `conclude`, so that a host that lives in real
  time can do the middle one itself.
-/

namespace Ls8.CommandLine

/-- Why there is nothing to run. -/
inductive Refusal where
  | usage (e : UsageError)
  /-- An option that was set to nothing is compared with zero. -/
  | unset (comparison : String)
  /-- The path of the program is too long. -/
  | tooLong (program : Path)
  /-- The trace has no such capacity. -/
  | trace (e : Trace.CapacityError)
  /-- The program is a directory. -/
  | directory (program : Path)
  /-- The program is not UTF-8. -/
  | encoding
  deriving DecidableEq, Repr

/-- The text of a refusal. -/
def Refusal.message : Refusal → String
  | .usage e => e.message
  | .unset comparison =>
    "'" ++ comparison ++ "' not supported between instances of 'list' and 'int'"
  | .tooLong program => "[Errno 36] File name too long: " ++ Text.quote program.text
  | .trace e => e.message
  | .directory program => "[Errno 21] Is a directory: " ++ Text.quote program.text
  | .encoding => LoadError.encoding.message

/-- Why the host of a session fails. -/
inductive Failure where
  /-- It is interrupted from the keyboard. -/
  | interrupt
  /-- Something else, with its text. -/
  | other (text : String)
  deriving DecidableEq, Repr

variable {σ : Type}

/-- What the options are set to, once they are checked. -/
structure Settings where
  tickInterval : Seconds
  timerInterval : Seconds
  trace : Int

/-- An interval that has a value and is positive, as far as it can be compared. -/
def checkInterval : Option Seconds → Except Refusal Seconds
  | none => .error (.unset "<=")
  | some seconds => if seconds ≤ 0 then .error (.usage .intervals) else .ok seconds

/-- A length of the trace that has a value and is not negative. -/
def checkTrace : Option Int → Except Refusal Int
  | none => .error (.unset "<")
  | some n => if n < 0 then .error (.usage .negativeTrace) else .ok n

/-- The complaints about options that do not depend on the program. -/
def Options.check (o : Options) : Except Refusal Settings := do
  return {
    tickInterval := ← checkInterval o.tickInterval
    timerInterval := ← checkInterval o.timerInterval
    trace := ← checkTrace o.trace }

/-- The machine that the options ask for, with no program in it. -/
def Options.machine (o : Options) (host : σ) : Except Refusal (Machine Seconds σ) := do
  let settings ← o.check
  let trace ← (Trace.Recorder.createIfPositive settings.trace).mapError .trace
  return .ofMemory .full settings.tickInterval settings.timerInterval trace host

/-- **Checks the options and loads the program.**  That the program exists is checked before the
    other options are, and what it holds after them. -/
def prepare (o : Options) (found : Found) (host : σ) : Except Refusal (Machine Seconds σ) :=
  match found with
  | .missing => .error (.usage (.programNotFound o.program))
  | .tooLong => .error (.tooLong o.program)
  | .directory => do
    discard (o.machine host)
    throw (.directory o.program)
  | .file bytes => do
    match (← o.machine host).load bytes o.program.stem with
    | (m, .ok _) => return m
    | (_, .error .encoding) => throw .encoding
    | (_, .error e) => throw (.usage (.unloadable o.program e.message))

/-- How a session ends. -/
inductive Ending where
  /-- The session returned a status. -/
  | returned (status : Nat)
  /-- The session was left with an exit code. -/
  | exited (code : Nat)
  /-- There was nothing to run, for a reason that is not a usage error. -/
  | refused (r : Refusal)
  /-- The run was cut short, by something that is not an interrupt from the keyboard. -/
  | cut (i : Machine.Interruption Failure)

/-- The status of a machine whose run ended by itself. -/
def status (m : Machine Seconds σ) : Nat := if m.rig.cpu.fault.isSome then 1 else 0

/-- What is printed after a run: the trace, if there is one and the processor faulted. -/
def finalLines (m : Machine Seconds σ) : List String :=
  match m.rig.cpu.fault, m.rig.cpu.trace with
  | some _, some recorder => recorder.lines none
  | _, _ => []

/-- **Says how a run ended:** the machine after it, the ending, and what is printed last.  An
    interrupt from the keyboard stops the clock. -/
def conclude (env : Environment Seconds σ Failure) (fuel : Nat) :
    Machine Seconds σ × Option (Machine.Interruption Failure) →
      Machine Seconds σ × Ending × List String
  | (m, none) => (m, .returned (status m), finalLines m)
  | (m, some (.failed (.host .interrupt))) =>
    ((m.perform env fuel (.stop .done)).1, .returned 130, [])
  | (m, some i) => (m, .cut i, [])

/-! ## What a session prints -/

/-- What a session leaves. -/
structure Session (σ : Type) where
  ending : Ending
  /-- Everything printed on the standard output. -/
  output : String
  /-- Everything printed on the error stream. -/
  errors : String
  host : σ

/-- Lines as they are printed. -/
def printed (ls : List String) : String := String.join (ls.map (· ++ "\n"))

/-- The text that an effect prints on the standard output, one line each. -/
def outputLines : Effect → List String
  | .output text => [text]
  | _ => []

/-- **A session,** with the arguments, the files it can see and the host it runs in. -/
def session (categories : Categories) (surroundings : Surroundings)
    (env : Environment Seconds σ Failure) (fuel : Nat) (arguments : List String) (host : σ) :
    Session σ :=
  match readArguments arguments with
  | .error e => ⟨.exited 2, "", complaint e.message, host⟩
  | .ok .help => ⟨.exited 0, help, "", host⟩
  | .ok (.run o) =>
    match prepare o (surroundings.find o.program) host with
    | .error (.usage e) => ⟨.exited 2, "", complaint e.message, host⟩
    | .error r => ⟨.refused r, "", "", host⟩
    | .ok m =>
      let (m, ending, last) := conclude env fuel (m.run env fuel)
      let effects := m.rig.effects.toList
      ⟨ending, printed (effects.flatMap outputLines),
        printed (effects.flatMap (Machine.errorLines categories) ++ last), m.rig.host⟩

end Ls8.CommandLine
