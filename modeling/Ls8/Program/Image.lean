import Ls8.Byte
import Ls8.Diagnostic

/-
  Program images: the bytes of a loaded program and the lines they came from.
-/

namespace Ls8

/-- The bytes of a program, where they start, and for each the number of its source line. -/
structure ProgramImage where
  name : String := ""
  start : Int := 0
  bytes : List UInt8 := []
  lines : List Int := []
  deriving DecidableEq, Repr

namespace ProgramImage

/-- How many bytes an image has. -/
def size (p : ProgramImage) : Nat := p.bytes.length

/-- The address of the last byte; one below the start for an empty image. -/
def last (p : ProgramImage) : Int := p.start + p.size - 1

/-- The image with one more byte, the low eight bits of `value`. -/
def append (p : ProgramImage) (value line : Int) : ProgramImage :=
  { p with bytes := p.bytes ++ [UInt8.ofInt value], lines := p.lines ++ [line] }

/-- What is reported of a loaded image. -/
def report (p : ProgramImage) : Diagnostic := .loaded p.name p.size p.start

@[simp] theorem size_append (p : ProgramImage) (value line : Int) :
    (p.append value line).size = p.size + 1 := by
  simp [append, size]

end ProgramImage

end Ls8
