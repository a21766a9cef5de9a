import Ls8.CommandLine.Session

/-
  The command: a session in real time.

  The host of the machine is the process itself, and its state is the time in seconds at which the
  current pass of the clock began.  After each pass the process prints what the machine has done
  and sleeps until the next event is due.  An interrupt from the keyboard ends the process.
-/

namespace Ls8.CommandLine

/-- The process as the host of a machine: texts are taken without a request and printed after the
    pass, and the process sleeps between passes only. -/
def processHost : Environment Seconds Seconds Failure where
  output := .silent Seconds Failure
  now := id
  sleep now _ := (now, [])

/-- Bounds the firings of one pass. -/
def passFuel : Nat := 0x100000000

/-- What a path leads to in the file system. -/
def findFile (p : Path) : IO Found := do
  try
    let path ← IO.FS.realPath p.text
    if ← path.isDir then return .directory
    return .file (← IO.FS.readBinFile path).toList
  catch _ => return .missing

/-- The present moment in seconds. -/
def moment : IO Seconds := return { value := (← IO.monoNanosNow).toFloat / 1000000000 }

/-- Prints what a machine has done, and forgets it. -/
def printEffects (categories : Categories) (m : Machine Seconds Seconds) :
    IO (Machine Seconds Seconds) := do
  for effect in m.rig.effects do
    IO.print (printed (outputLines effect))
    IO.eprint (printed (Machine.errorLines categories effect))
  (← IO.getStdout).flush
  return { m with rig := { m.rig with effects := #[] } }

/-- Performs a task at the present moment and prints what it has done. -/
def performNow (categories : Categories) (task : Machine.Task Seconds Seconds Failure)
    (m : Machine Seconds Seconds) :
    IO (Machine Seconds Seconds × Option (Machine.Interruption Failure)) := do
  let now ← moment
  let (m, i) := { m with rig := { m.rig with host := now } }.perform processHost passFuel task
  return (← printEffects categories m, i)

/-- Fires what is due and sleeps until the next event, as long as the clock is running and has
    events. -/
partial def live (categories : Categories) (m : Machine Seconds Seconds) :
    IO (Machine Seconds Seconds × Option (Machine.Interruption Failure)) := do
  if !m.clock.running || m.clock.events.isEmpty then return (m, none)
  let (m, i) ← performNow categories (.runPending fun _ => .done) m
  if i.isSome then return (m, i)
  if let some d := m.clock.delay? (← moment) then
    if m.clock.running && 0 < d then IO.sleep (d.value * 1000).ceil.toUInt32
  live categories m

/-- Runs a machine in real time. -/
def runLive (categories : Categories) (m : Machine Seconds Seconds) :
    IO (Machine Seconds Seconds × Option (Machine.Interruption Failure)) := do
  let (m, i) ← performNow categories (Machine.addSources m.tickInterval m.timerInterval .done) m
  if i.isSome then return (m, i)
  let notice := Clock.Notice.started m.clock.events.size
  let m := { m with
    clock := { m.clock with running := true }
    rig := m.rig.did (.diagnostic notice.diagnostic) }
  live categories (← printEffects categories m)

/-- The exit code of a session. -/
def Ending.exitCode : Ending → UInt32
  | .returned status => status.toUInt32
  | .exited code => code.toUInt32
  | .refused _ | .cut _ => 1

/-- A session in real time. -/
def liveSession (categories : Categories) (arguments : List String) : IO Ending := do
  match readArguments arguments with
  | .error e =>
    IO.eprint (complaint e.message)
    return .exited 2
  | .ok .help =>
    IO.print help
    return .exited 0
  | .ok (.run options) =>
    match prepare options (← findFile options.program) 0 with
    | .error (.usage e) =>
      IO.eprint (complaint e.message)
      return .exited 2
    | .error r =>
      IO.eprintln r.message
      return .refused r
    | .ok m =>
      let (m, ending, last) := conclude processHost passFuel (← runLive categories m)
      discard (printEffects categories m)
      IO.eprint (printed last)
      return ending

end Ls8.CommandLine

/-- **The command:** its arguments and the environment decide what is done, the exit code says how
    it ended. -/
def main (arguments : List String) : IO UInt32 := do
  let categories := Ls8.Categories.ofSetting (← IO.getEnv "LS8_DEBUG")
  return (← Ls8.CommandLine.liveSession categories arguments).exitCode
