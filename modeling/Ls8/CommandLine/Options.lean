import Ls8.CommandLine.Path
import Ls8.Seconds
import Ls8.Text.NumeralReading
import Ls8.Text.Quoted

/-
  Command-line arguments.

  The arguments are first told apart, all of them, before any is acted on: an option, a plain
  argument, or the separator `--`, behind which everything is plain.  A long option may be
  shortened to any beginning that no other one shares, and may carry its argument behind an equals
  sign; a beginning that several share is an error.  Something that looks like an option but is
  none is an unrecognized argument, unless it is a negative number or holds a space: then it is
  plain.

  They are then acted on from left to right.  The first plain argument is the program; further ones
  are unrecognized, which is reported only at the end.  An option whose attached argument is the
  separator is set to nothing, since the separator stands for no argument; a later use of the option
  may still set it.
-/

namespace Ls8.CommandLine

/-- What the arguments ask for.  An option that was set to nothing has no value. -/
structure Options where
  program : Path
  tickInterval : Option Seconds := some 0.001
  timerInterval : Option Seconds := some 1.0
  /-- How many ticks of trace are kept. -/
  trace : Option Int := some 0

/-- The options. -/
inductive Flag where
  | help
  | tickInterval
  | timerInterval
  | trace
  deriving DecidableEq, Repr

namespace Flag

/-- Every spelling of an option, in the order in which they are declared. -/
def spellings : List (String × Flag) := [
  ("-h", help),
  ("--help", help),
  ("--tick-interval", tickInterval),
  ("--timer-interval", timerInterval),
  ("--trace", trace)]

/-- How error messages name an option. -/
def name : Flag → String
  | help => "-h/--help"
  | tickInterval => "--tick-interval"
  | timerInterval => "--timer-interval"
  | trace => "--trace"

end Flag

/-- What stops the reading of arguments. -/
inductive UsageError where
  /-- A shortened option that several options begin with. -/
  | ambiguous (spelling : String) (candidates : List String)
  /-- An option without its argument. -/
  | missingArgument (flag : Flag)
  /-- An option with an argument that it does not take. -/
  | ignoredArgument (flag : Flag) (value : String)
  /-- An argument that is no number of the kind wanted. -/
  | invalidValue (flag : Flag) (kind value : String)
  /-- No program is named. -/
  | missingProgram
  | unrecognized (arguments : List String)
  /-- The program file does not exist. -/
  | programNotFound (program : Path)
  | intervals
  | negativeTrace
  /-- The program file cannot be loaded. -/
  | unloadable (program : Path) (reason : String)
  deriving DecidableEq, Repr

/-- The text of a usage error. -/
def UsageError.message : UsageError → String
  | .ambiguous spelling candidates =>
    "ambiguous option: " ++ spelling ++ " could match " ++ ", ".intercalate candidates
  | .missingArgument flag => "argument " ++ flag.name ++ ": expected one argument"
  | .ignoredArgument flag value =>
    "argument " ++ flag.name ++ ": ignored explicit argument " ++ Text.quote value
  | .invalidValue flag kind value =>
    "argument " ++ flag.name ++ ": invalid " ++ kind ++ " value: " ++ Text.quote value
  | .missingProgram => "the following arguments are required: program"
  | .unrecognized arguments => "unrecognized arguments: " ++ " ".intercalate arguments
  | .programNotFound program => "Program file not found: " ++ program.text
  | .intervals => "intervals must be positive"
  | .negativeTrace => "--trace must not be negative"
  | .unloadable program reason => program.text ++ ": " ++ reason

/-! ## Telling arguments apart -/

/-- What an argument is. -/
inductive Token where
  | plain (s : String)
  | separator
  /-- An option, with what is attached to it by an equals sign. -/
  | option (flag : Flag) (attached : Option String)
  /-- The help option in its short form with characters behind it. -/
  | helpCluster (tail : List Char)
  /-- Something that looks like an option. -/
  | unknown (s : String)
  deriving DecidableEq, Repr

/-- What stands before the first equals sign and, if there is one, what stands behind it. -/
def splitEquals (s : String) : String × Option String :=
  let front := s.toList.takeWhile (· != '=')
  match s.toList.dropWhile (· != '=') with
  | [] => (String.ofList front, none)
  | _ :: back => (String.ofList front, some (String.ofList back))

/-- A digit of any script. -/
def isDigit (c : Char) : Bool := (Text.decimalValue? c).isSome

/-- A minus sign and digits, perhaps with a point among or before them; a line feed at the end does
    not count. -/
def looksNegative (cs : List Char) : Bool :=
  match cs with
  | '-' :: body =>
    let body := if body.getLast? = some '\n' then body.dropLast else body
    let whole := body.takeWhile isDigit
    match body.dropWhile isDigit with
    | [] => !whole.isEmpty
    | '.' :: places => !places.isEmpty && places.all isDigit
    | _ => false
  | _ => false

/-- The options whose long spelling begins as given. -/
def candidates (beginning : String) : List (String × Flag) :=
  Flag.spellings.filter fun (spelling, _) => beginning.toList.isPrefixOf spelling.toList

/-- What an argument in front of the separator is. -/
def Token.ofArgument (s : String) : Except UsageError Token :=
  match s.toList with
  | '-' :: second :: rest =>
    match Flag.spellings.lookup s with
    | some flag => .ok (.option flag none)
    | none =>
      let (front, attached) := splitEquals s
      match Flag.spellings.lookup front, attached with
      | some flag, some value =>
        if second = 'h' then .ok (.helpCluster value.toList) else .ok (.option flag (some value))
      | _, _ =>
        let other : Except UsageError Token :=
          if looksNegative s.toList || s.toList.contains ' ' then .ok (.plain s)
          else .ok (.unknown s)
        if second = '-' then
          match candidates front with
          | [] => other
          | [(_, flag)] => .ok (.option flag attached)
          | several => .error (.ambiguous s (several.map Prod.fst))
        else if second = 'h' then .ok (.helpCluster rest)
        else other
  | _ => .ok (.plain s)

/-- **Tells all arguments apart.** -/
def tokens : List String → Except UsageError (List Token)
  | [] => .ok []
  | s :: rest =>
    if s = "--" then .ok (.separator :: rest.map .plain)
    else do
      let token ← Token.ofArgument s
      let more ← tokens rest
      return token :: more

/-! ## Acting on them -/

/-- What has been read so far. -/
structure Reading where
  program : Option Path := none
  tickInterval : Option Seconds := some 0.001
  timerInterval : Option Seconds := some 1.0
  trace : Option Int := some 0
  /-- Arguments that mean nothing. -/
  extras : List String := []

/-- What reading the arguments leads to. -/
inductive Request where
  /-- The help text is wanted. -/
  | help
  | run (options : Options)

/-- A number of seconds. -/
def readSeconds (flag : Flag) (value : String) : Except UsageError Seconds :=
  match Text.readDecimal value with
  | some number => .ok number.toFloat
  | none => .error (.invalidValue flag "float" value)

/-- A number of ticks. -/
def readTicks (flag : Flag) (value : String) : Except UsageError Int :=
  match Text.readInteger value with
  | some n => .ok n
  | none => .error (.invalidValue flag "int" value)

/-- The value of an option from its argument; the separator stands for no argument. -/
def readValue {α : Type} (read : String → Except UsageError α) (value : String) :
    Except UsageError (Option α) :=
  if value = "--" then .ok none else (read value).map some

/-- Takes the argument of an option. -/
def Reading.take (r : Reading) (flag : Flag) (value : String) : Except UsageError Reading :=
  match flag with
  | .help => .error (.ignoredArgument .help value)
  | .tickInterval => do return { r with tickInterval := ← readValue (readSeconds flag) value }
  | .timerInterval => do return { r with timerInterval := ← readValue (readSeconds flag) value }
  | .trace => do return { r with trace := ← readValue (readTicks flag) value }

/-- The short help option with characters behind it: each of them has to be one more of it.  Nothing
    at all behind an equals sign is no such character. -/
def readHelpCluster (tail : List Char) : Except UsageError Unit :=
  if tail != [] && tail.all (· == 'h') then .ok ()
  else .error (.ignoredArgument .help (String.ofList (tail.dropWhile (· == 'h'))))

/-- Ends the reading. -/
def Reading.finish (r : Reading) : Except UsageError Request :=
  match r.program with
  | none => .error .missingProgram
  | some program =>
    if r.extras.isEmpty then
      .ok (.run {
        program := program
        tickInterval := r.tickInterval
        timerInterval := r.timerInterval
        trace := r.trace })
    else .error (.unrecognized r.extras)

/-- Adds an argument that means nothing. -/
def Reading.ignore (r : Reading) (s : String) : Reading := { r with extras := r.extras ++ [s] }

/-- Takes a plain argument: the program, if none is named yet. -/
def Reading.takePlain (r : Reading) (s : String) : Reading :=
  match r.program with
  | none => { r with program := some (.parse s) }
  | some _ => r.ignore s

/-- Acts on arguments from left to right.  The separator goes with the plain argument next to it
    that names the program; elsewhere it means nothing. -/
def act : List Token → Reading → Except UsageError Request
  | [], r => r.finish
  | .plain s :: .separator :: rest, r =>
    act rest (if r.program.isNone then r.takePlain s else (r.ignore s).ignore "--")
  | .plain s :: rest, r => act rest (r.takePlain s)
  | .separator :: .plain s :: rest, r =>
    act rest (if r.program.isNone then r.takePlain s else (r.ignore "--").ignore s)
  | .separator :: rest, r => act rest (r.ignore "--")
  | .option .help none :: _, _ => .ok .help
  | .option flag none :: .plain value :: rest, r => do act rest (← r.take flag value)
  | .option flag none :: _, _ => .error (.missingArgument flag)
  | .option flag (some value) :: rest, r => do act rest (← r.take flag value)
  | .helpCluster tail :: _, _ => do
    readHelpCluster tail
    return .help
  | .unknown s :: rest, r => act rest (r.ignore s)

/-- **Reads the arguments.** -/
def readArguments (arguments : List String) : Except UsageError Request := do
  let found ← tokens arguments
  act found {}

end Ls8.CommandLine
