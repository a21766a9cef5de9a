import Ls8.Text.Printable
import Ls8.Text.Numeral

/-
  Quoted text, as error messages show it.

  A text stands between single quotes, or between double quotes if it holds a single quote and no
  double one.  Inside, the quote in use and the backslash take a backslash in front, the line and
  tab controls are written by letter, every other character that is not printable by its code
  point, and all else as itself.
-/

namespace Ls8.Text

/-- The single quote. -/
def singleQuote : Char := '\x27'

/-- The double quote. -/
def doubleQuote : Char := '\x22'

/-- The backslash. -/
def backslash : Char := '\x5c'

/-- Double quotes are used only where they save an escape. -/
def quoteMark (cs : List Char) : Char :=
  if cs.contains singleQuote && !cs.contains doubleQuote then doubleQuote else singleQuote

/-- The code point of a character, behind a backslash and a letter that says how many digits
    follow: two, four or eight. -/
def escapeCode (c : Char) : List Char :=
  let n := c.toNat
  let numeral := hexDigits false n
  if n < 0x100 then field [] [backslash, 'x'] 4 numeral
  else if n < 0x10000 then field [] [backslash, 'u'] 6 numeral
  else field [] [backslash, 'U'] 10 numeral

/-- One character of a quoted text, where `mark` is the quote in use. -/
def quoteChar (mark c : Char) : List Char :=
  if c == mark || c == backslash then [backslash, c]
  else if c == '\n' then [backslash, 'n']
  else if c == '\r' then [backslash, 'r']
  else if c == '\t' then [backslash, 't']
  else if isPrintable c then [c]
  else escapeCode c

/-- **A text in quotes.** -/
def quote (s : String) : String :=
  let cs := s.toList
  let mark := quoteMark cs
  String.ofList (mark :: cs.flatMap (quoteChar mark) ++ [mark])

example : quote "tick" = "'tick'" := by decide +kernel
example : quote "a\tb" = "'a\\tb'" := by decide +kernel

end Ls8.Text
