import Ls8.Memory
import Ls8.Program.Image
import Ls8.Text.Lines
import Ls8.Text.Utf8

/-
  Program text and its loading.

  A program text has at most one byte per line, written as one to eight binary digits.  A comment
  runs from the first `#` to the end of its line; blanks around the digits do not count, and a line
  may hold nothing.

  Loading writes the bytes into memory one after the other and stops at the first line that is not
  of this form or whose byte would land past the last address.  What was written before that line
  stays.

  A program file is the same text in UTF-8, with any of the usual line ends.  It is read in blocks,
  and the next block only when a line is needed that the blocks before it do not finish.  So bad
  UTF-8 is found after the lines that end in front of its block are done, which for a short file
  means before the first line; an unfinished character at the very end is found when all lines
  before it are done.
-/

namespace Ls8

/-- Why a program could not be loaded. -/
inductive LoadError where
  /-- The start is no address. -/
  | startOutside (start : Int)
  /-- A line that holds neither a byte nor nothing. -/
  | malformed (line : Nat) (text : String)
  /-- A byte that would land past the last address. -/
  | tooLong (line : Nat)
  /-- The memory refused a byte. -/
  | memory (cause : MemoryError)
  /-- A file that is not UTF-8. -/
  | encoding
  deriving DecidableEq, Repr

/-- The text of a load error. -/
def LoadError.message : LoadError → String
  | .startOutside start => "start address " ++ Text.plainHex start ++ " outside the address space"
  | .malformed line text =>
    "line " ++ Text.decimal line ++ ": expected up to 8 binary digits, got " ++ Text.quote text
  | .tooLong line => "line " ++ Text.decimal line ++ ": program does not fit below 0x100"
  | .memory e => e.message
  | .encoding => "not UTF-8"

/-! ## Lines -/

/-- What a line of program text holds. -/
inductive SourceLine where
  | nothing
  | byte (b : UInt8)
  | junk (text : List Char)
  deriving DecidableEq, Repr

/-- A binary digit. -/
def isBinaryDigit (c : Char) : Bool := c == '0' || c == '1'

/-- The number that binary digits write. -/
def binaryValue (cs : List Char) : Nat :=
  cs.foldl (fun n c => n * 2 + (if c = '1' then 1 else 0)) 0

/-- The part of a line before its comment. -/
def withoutComment (cs : List Char) : List Char := cs.takeWhile (· != '#')

/-- **What a line holds.** -/
def SourceLine.ofChars (cs : List Char) : SourceLine :=
  let text := Text.trim (withoutComment cs)
  if text.isEmpty then .nothing
  else if text.length ≤ 8 && text.all isBinaryDigit then .byte (UInt8.ofNat (binaryValue text))
  else .junk text

/-! ## Loading -/

/-- What loading leaves: the memory, and the image or the error. -/
structure Loading where
  memory : Memory
  result : Except LoadError ProgramImage

/-- Loads lines, the first of which has the given number, behind the bytes of an image. -/
def loadLines : Nat → List (List Char) → Memory → ProgramImage → Loading
  | _, [], m, image => ⟨m, .ok image⟩
  | number, line :: rest, m, image =>
    match SourceLine.ofChars line with
    | .nothing => loadLines (number + 1) rest m image
    | .junk text => ⟨m, .error (.malformed number (String.ofList text))⟩
    | .byte b =>
      let a := image.start + image.size
      if 256 ≤ a then ⟨m, .error (.tooLong number)⟩
      else
        match m.store a b with
        | .ok m => loadLines (number + 1) rest m (image.append b.toNat number)
        | .error e => ⟨m, .error (.memory e)⟩

/-- Loads lines from an address, which is checked first. -/
def loadFrom (lines : List (List Char)) (start : Int) (name : String) (m : Memory) : Loading :=
  if 0 ≤ start ∧ start < 256 then loadLines 1 lines m { name := name, start := start }
  else ⟨m, .error (.startOutside start)⟩

/-- **Loads a program text.** -/
def loadText (text : String) (start : Int) (name : String) (m : Memory) : Loading :=
  loadFrom (Text.lines text.toList) start name m

/-- A carriage return at the very end of what was decoded is not yet known to end a line. -/
def withoutOpenReturn (cs : List Char) : List Char :=
  if cs.getLast? = some '\r' then cs.dropLast else cs

/-- Loads the finished lines of what was decoded in front of bad UTF-8, and then fails. -/
def loadUntilBad (cs : List Char) (start : Int) (name : String) (m : Memory) : Loading :=
  let finished := Text.closedLines (Text.unifyLineEnds (withoutOpenReturn cs))
  let loading := loadFrom finished start name m
  { loading with result := loading.result.bind fun _ => .error .encoding }

/-- How many bytes of a file are read at a time. -/
def blockSize : Nat := 8192

/-- **Loads a program file** from its bytes. -/
def loadFile (bytes : List UInt8) (start : Int) (name : String) (m : Memory) : Loading :=
  match Text.decodeUtf8 bytes with
  | (cs, .complete) => loadFrom (Text.lines (Text.unifyLineEnds cs)) start name m
  | (cs, .truncated) => loadUntilBad cs start name m
  | (_, .malformed left) =>
    let blocks := (bytes.length - left) / blockSize
    loadUntilBad (Text.decodeUtf8 (bytes.take (blocks * blockSize))).1 start name m

example : SourceLine.ofChars "  101 # five".toList = .byte 5 := by decide +kernel
example : SourceLine.ofChars "# nothing".toList = .nothing := by decide +kernel
example : SourceLine.ofChars "102".toList = .junk "102".toList := by decide +kernel

end Ls8
