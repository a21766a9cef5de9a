import Ls8.Byte
import Ls8.Text.Numeral
import Ls8.Text.Separated

/-
  Entries of a trace and their lines.

  A sample is what is known of a processor at one moment, with integers of any size; an entry keeps
  their low eight bits, so that later changes of the processor cannot reach it.  An entry is shown
  as one line of fields in fixed order.
-/

namespace Ls8.Trace

/-- What is known of a processor at one moment. -/
structure Sample where
  pc : Int
  registers : List Int
  equal : Option Bool
  interruptsEnabled : Bool
  halted : Bool

/-- What a trace keeps of a moment. -/
structure Entry where
  pc : UInt8
  opcode : Option UInt8
  mnemonic : String
  registers : List UInt8
  equal : Option Bool
  interruptsEnabled : Bool
  halted : Bool
  note : String
  deriving DecidableEq, Repr

/-- The entry of a sample, with the opcode being executed, its name, and a note. -/
def Entry.ofSample (s : Sample) (opcode : Option Int) (mnemonic note : String) : Entry where
  pc := UInt8.ofInt s.pc
  opcode := opcode.map UInt8.ofInt
  mnemonic := mnemonic
  registers := s.registers.map UInt8.ofInt
  equal := s.equal
  interruptsEnabled := s.interruptsEnabled
  halted := s.halted
  note := note

namespace Entry

/-- The opcode field: two digits, or two dashes where no instruction was fetched. -/
def opcodeField : Option UInt8 → List Char
  | none => ['-', '-']
  | some b => Text.byteUpper b

/-- The name field: at least four characters, a question mark for a missing name. -/
def mnemonicField (name : String) : List Char :=
  let cs := if name.isEmpty then ['?'] else name.toList
  cs ++ List.replicate (4 - cs.length) ' '

/-- The register fields, numbered from `index`. -/
def registerFields (index : Nat) : List UInt8 → List (List Char)
  | [] => []
  | b :: rest =>
    ('R' :: Text.decimalDigits index ++ '=' :: Text.byteUpper b) :: registerFields (index + 1) rest

/-- The comparison field. -/
def equalField : Option Bool → Char
  | none => '-'
  | some true => 'E'
  | some false => 'e'

/-- The remarks of an entry: disabled interrupts, a halt, and the note. -/
def remarks (e : Entry) : List (List Char) :=
  (if e.interruptsEnabled then [] else ["DI".toList]) ++
  (if e.halted then ["HALT".toList] else []) ++
  (if e.note.isEmpty then [] else [e.note.toList])

/-- The remarks field; a dash where there are none. -/
def remarksField (e : Entry) : List Char :=
  if e.remarks.isEmpty then ['-'] else Text.joined ',' e.remarks

/-- The characters of an entry's line. -/
def chars (e : Entry) : List Char :=
  "pc=".toList ++ Text.byteUpper e.pc ++
  " opcode=".toList ++ opcodeField e.opcode ++
  ' ' :: mnemonicField e.mnemonic ++
  ' ' :: Text.joined ' ' (registerFields 0 e.registers) ++
  " EQ=".toList ++ [equalField e.equal] ++
  " flags=".toList ++ remarksField e

/-- **The line of an entry.** -/
def line (e : Entry) : String := String.ofList e.chars

end Entry

end Ls8.Trace
