import Ls8.Text.Separated

/-
  Paths to program files.

  A path is a list of names below a root.  Repeated slashes and single dots mean nothing, so several
  spellings are the same path; it is shown in its plain spelling.  Exactly two slashes in front are
  a root of their own.
-/

namespace Ls8.CommandLine

/-- A path to a file. -/
structure Path where
  /-- What the names stand below: nothing, one slash, or two. -/
  root : List Char
  names : List (List Char)
  deriving DecidableEq, Repr

namespace Path

/-- The root of a spelling. -/
def rootOf (cs : List Char) : List Char :=
  let slashes := (cs.takeWhile (· == '/')).length
  if slashes = 0 then [] else if slashes = 2 then ['/', '/'] else ['/']

/-- **The path of a spelling.** -/
def parse (s : String) : Path where
  root := rootOf s.toList
  names := (Text.split '/' s.toList).filter fun part => part != [] && part != ['.']

/-- The plain spelling of a path; a path without anything in it is a dot. -/
def text (p : Path) : String :=
  let cs := p.root ++ Text.joined '/' p.names
  String.ofList (if cs.isEmpty then ['.'] else cs)

/-- The last name of a path without its extension, which starts at the last dot unless that is the
    first or the last character. -/
def stem (p : Path) : String :=
  let name := p.names.getLast?.getD []
  let extension := (name.reverse.takeWhile (· != '.')).length
  let front := name.length - extension - 1
  String.ofList (if extension = 0 || name.length ≤ extension + 1 then name else name.take front)

end Path

/-! ## Files -/

/-- What a path leads to. -/
inductive Found where
  | missing
  | directory
  | file (bytes : List UInt8)
  /-- A name on the way, or the whole path, is too long to be looked up. -/
  | tooLong
  deriving DecidableEq, Repr

/-- A name may not have more bytes than this. -/
def nameLimit : Nat := 255

/-- A path may not have more bytes than this. -/
def pathLimit : Nat := 4095

/-- How many bytes characters take in UTF-8. -/
def byteCount (cs : List Char) : Nat := (String.ofList cs).utf8ByteSize

/-- The files that a session can see: those of its working directory, which holds no directories,
    and what is known of the places outside, each given by its names from the root.  The directories
    above the working directory exist, and nothing but the places is known of what they hold. -/
structure Surroundings where
  files : List (String × List UInt8)
  /-- How many directories lie above the working directory, the root among them. -/
  depth : Nat
  places : List (List String × Found) := []

namespace Surroundings

/-- Follows names from a known place, which is a directory. -/
def followFrom (s : Surroundings) : List String → List (List Char) → Found
  | _, [] => .directory
  | place, name :: rest =>
    if name = ['.', '.'] then s.followFrom place.dropLast rest
    else if byteCount name > nameLimit then .tooLong
    else
      let place := place ++ [String.ofList name]
      match s.places.lookup place, rest with
      | some .directory, _ => s.followFrom place rest
      | some (.file bytes), [] => .file bytes
      | _, _ => .missing

/-- Follows names from a directory, `above` levels above the working directory and below the
    root. -/
def followFromHere (s : Surroundings) : Nat → List (List Char) → Found
  | _, [] => .directory
  | above, name :: rest =>
    if name = ['.', '.'] then
      if above + 1 < s.depth then s.followFromHere (above + 1) rest else s.followFrom [] rest
    else if byteCount name > nameLimit then .tooLong
    else if above = 0 then
      match s.files.lookup (String.ofList name), rest with
      | some bytes, [] => .file bytes
      | _, _ => .missing
    else .missing

/-- **What a path leads to.**  No path holds a NUL. -/
def find (s : Surroundings) (p : Path) : Found :=
  if p.text.toList.contains '\x00' then .missing
  else if p.text.utf8ByteSize > pathLimit then .tooLong
  else if p.root.isEmpty then s.followFromHere 0 p.names
  else s.followFrom [] p.names

end Surroundings

end Ls8.CommandLine
