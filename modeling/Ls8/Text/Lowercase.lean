import Ls8.Text.CaseTables

/-
  Lowercase forms.

  A character is replaced by its lowercase form of the Unicode standard.  Two characters are
  special: the dotted capital I becomes two characters, and a capital sigma at the end of a word
  becomes a final sigma.  "At the end of a word" means: a cased letter stands before it and none
  after it, where ignorable characters in between do not count.
-/

namespace Ls8.Text

/-- The capital sigma. -/
def capitalSigma : Char := Char.ofNat 0x3a3

/-- The lowercase form of a character that does not depend on its context. -/
def lowerChar (c : Char) : List Char :=
  if c.toNat = 0x130 then ['i', Char.ofNat 0x307]
  else
    match caseRuns.find? fun run => run.covers c.toNat with
    | some run => [Char.ofNat (c.toNat + run.shift).toNat]
    | none => [c]

/-- Whether the first character that is not ignorable is a cased letter. -/
def startsCased (cs : List Char) : Bool :=
  match cs.dropWhile caseIgnorable.contains with
  | [] => false
  | c :: _ => casedLetters.contains c

/-- Lowercase forms of a text, where `before` is what precedes it, the nearest character first. -/
def lowerFrom (before : List Char) : List Char → List Char
  | [] => []
  | c :: rest =>
    let image :=
      if c = capitalSigma then
        if startsCased before && !startsCased rest then [Char.ofNat 0x3c2] else [Char.ofNat 0x3c3]
      else lowerChar c
    image ++ lowerFrom (c :: before) rest

/-- **The lowercase form of a text.** -/
def lowercase (s : String) : String := String.ofList (lowerFrom [] s.toList)

example : lowercase "CPU, irq" = "cpu, irq" := by cbv

end Ls8.Text
