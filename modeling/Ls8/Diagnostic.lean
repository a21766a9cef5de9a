import Ls8.Fault
import Ls8.Text.Lowercase
import Ls8.Text.Blank
import Ls8.Text.Percent
import Ls8.Text.Separated

/-
  Diagnostics and their categories.

  The parts of the machine report what they do as values of `Diagnostic`, always and without
  looking whether anybody listens.  Which of them are printed is decided later, by the categories
  that a person has enabled: a comma-separated list of names, compared in lowercase, in which `all`
  stands for every category.

  Since reporting does not depend on the categories, enabling them cannot change what the machine
  does.
-/

namespace Ls8

/-! ## Categories -/

/-- The enabled categories, in lowercase. -/
structure Categories where
  names : List String
  deriving DecidableEq, Repr

namespace Categories

/-- No category. -/
def none : Categories := ⟨[]⟩

/-- The categories of a list as a person writes it: blanks around names and empty names do not
    count. -/
def parse (list : String) : Categories :=
  ⟨((Text.split ',' list.toList).map fun part =>
      Text.lowercase (String.ofList (Text.trim part))).filter (!·.isEmpty)⟩

/-- The categories of a setting that may be absent. -/
def ofSetting : Option String → Categories
  | .none => none
  | some list => parse list

/-- Whether anything is enabled. -/
def any (cs : Categories) : Bool := !cs.names.isEmpty

/-- **Whether a category is enabled,** by its name or by `all`. -/
def enables (cs : Categories) (category : String) : Bool :=
  cs.any && (cs.names.contains "all" || cs.names.contains (Text.lowercase category))

end Categories

/-! ## Diagnostics -/

/-- What the parts of the machine report. -/
inductive Diagnostic where
  /-- An interrupt is entered. -/
  | entering (line : Nat) (pc : Int) (sp : UInt8)
  /-- An instruction is about to be executed. -/
  | fetched (pc : Int) (opcode : UInt8) (mnemonic : String)
  /-- The processor stopped on a fault. -/
  | faulted (pc : Int) (fault : Fault)
  /-- The processor stopped on its halt instruction. -/
  | halted (pc : Int) (ticks : Nat)
  /-- The clock starts with so many sources. -/
  | clockStarted (sources : Nat)
  /-- The clock was stopped after so many firings. -/
  | clockStopped (dispatched : Nat)
  /-- A program was loaded. -/
  | loaded (name : String) (size : Nat) (start : Int)
  deriving DecidableEq, Repr

namespace Diagnostic

/-- The category of a diagnostic. -/
def category : Diagnostic → String
  | .entering .. => "irq"
  | .fetched .. | .faulted .. | .halted .. => "cpu"
  | .clockStarted .. | .clockStopped .. => "clock"
  | .loaded .. => "loader"

/-- The text of a diagnostic. -/
def text : Diagnostic → String
  | .entering line pc sp =>
    "enter line=" ++ Text.decimal line ++ " pc=" ++ Text.shortHex pc ++ " sp=" ++
      Text.shortHex sp.toNat
  | .fetched pc opcode mnemonic =>
    "pc=" ++ Text.shortHex pc ++ " opcode=" ++ Text.shortHex opcode.toNat ++ " " ++ mnemonic
  | .faulted pc fault => "fault pc=" ++ Text.shortHex pc ++ ": " ++ fault.message
  | .halted pc ticks => "halt pc=" ++ Text.shortHex pc ++ " ticks=" ++ Text.decimal ticks
  | .clockStarted n => "start sources=" ++ Text.decimal n
  | .clockStopped n => "stop dispatched=" ++ Text.decimal n
  | .loaded name size start =>
    "loaded " ++ (if name.isEmpty then "<stream>" else name) ++ " bytes=" ++ Text.decimal size ++
      " start=" ++ Text.shortHex start

end Diagnostic

/-- A line of the log. -/
def logLine (category : Option String) (text : String) : String :=
  "[LS8][" ++ category.getD "None" ++ "] " ++ text

/-- Whether texts under a category are printed; texts under none are if anything is enabled. -/
def Categories.allows (cs : Categories) : Option String → Bool
  | .none => cs.any
  | some category => cs.enables category

/-- What texts print under a category: a line each if it is enabled, else nothing. -/
def Categories.printed (cs : Categories) (category : Option String) (texts : List String) :
    List String :=
  if cs.allows category then texts.map (logLine category) else []

/-- What a diagnostic prints. -/
def Diagnostic.printed (cs : Categories) (d : Diagnostic) : List String :=
  cs.printed (some d.category) [d.text]

/-! ## A log for free messages -/

/-- A log whose setting is read when a category is first asked for and remembered from then on. -/
structure Log where
  /-- The setting in force, if there is one. -/
  setting : Option String
  /-- The categories of the setting when it was first needed. -/
  remembered : Option Categories := none

namespace Log

/-- The categories in force. -/
def categories (log : Log) : Categories :=
  log.remembered.getD (Categories.ofSetting log.setting)

/-- The log once its categories have been asked for. -/
def consulted (log : Log) : Log := { log with remembered := some log.categories }

/-- Whether a category, or anything at all, is enabled. -/
def enables (log : Log) (category : Option String) : Bool := log.categories.allows category

/-- The lines that a message prints. -/
def lines (log : Log) (category : Option String) (template : String) (args : List Text.Argument) :
    Except Text.Overflow (List String) :=
  if log.enables category then do
    return [logLine category (← Text.fill template args)]
  else return []

end Log

end Ls8
