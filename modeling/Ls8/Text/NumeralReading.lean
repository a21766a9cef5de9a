import Ls8.Text.Blank

/-
  Numerals that a person types: integers and decimal numbers.

  Before anything else every decimal digit of the Unicode standard counts as the ASCII digit of its
  value and every blank beyond ASCII as a space; spaces and layout controls around the numeral are
  then dropped.  A single underscore may stand between two digits.

  An integer is a sign and digits, at most `integerDigitLimit` of them.  A decimal number is a sign
  and either digits with a point and an exponent, or a name of infinity or of the undefined value;
  it is read exactly, and rounded once, to the nearest binary double.
-/

namespace Ls8.Text

/-! ## Digits of all scripts -/

/-- The code points of the digits zero of all scripts; each is followed by its nine other digits. -/
def digitZeros : List Nat := [
  0x30, 0x660, 0x6f0, 0x7c0, 0x966, 0x9e6, 0xa66, 0xae6, 0xb66, 0xbe6, 0xc66, 0xce6, 0xd66, 0xde6,
  0xe50, 0xed0, 0xf20, 0x1040, 0x1090, 0x17e0, 0x1810, 0x1946, 0x19d0, 0x1a80, 0x1a90, 0x1b50,
  0x1bb0, 0x1c40, 0x1c50, 0xa620, 0xa8d0, 0xa900, 0xa9d0, 0xa9f0, 0xaa50, 0xabf0, 0xff10, 0x104a0,
  0x10d30, 0x11066, 0x110f0, 0x11136, 0x111d0, 0x112f0, 0x11450, 0x114d0, 0x11650, 0x116c0,
  0x11730, 0x118e0, 0x11950, 0x11c50, 0x11d50, 0x11da0, 0x16a60, 0x16ac0, 0x16b50, 0x1d7ce,
  0x1d7d8, 0x1d7e2, 0x1d7ec, 0x1d7f6, 0x1e140, 0x1e2f0, 0x1e950, 0x1fbf0]

/-- The value of a decimal digit of any script. -/
def decimalValue? (c : Char) : Option Nat :=
  (digitZeros.find? fun start => start ≤ c.toNat && c.toNat < start + 10).map (c.toNat - ·)

/-- The value of an ASCII digit. -/
def asciiDigit? (c : Char) : Option Nat :=
  if '0' ≤ c ∧ c ≤ '9' then some (c.toNat - '0'.toNat) else none

/-- The ASCII character that a typed character counts as in a numeral; a question mark, which no
    numeral holds, if there is none. -/
def numeralChar (c : Char) : Char :=
  if c.toNat < 127 then c
  else if isBlank c then ' '
  else
    match decimalValue? c with
    | some d => Char.ofNat ('0'.toNat + d)
    | none => '?'

/-- The space and the layout controls of ASCII. -/
def isLayout (c : Char) : Bool := c == ' ' || (0x09 ≤ c.toNat && c.toNat ≤ 0x0d)

/-- The characters of a numeral, in ASCII and without layout around them. -/
def numeralChars (s : String) : List Char := trimBy isLayout (s.toList.map numeralChar)

/-! ## Digit groups -/

/-- The digits of a group in which single underscores stand between digits only. -/
def readDigits : List Char → Option (List Nat)
  | [] => none
  | [c] => (asciiDigit? c).map ([·])
  | c :: '_' :: rest => do
    let d ← asciiDigit? c
    let ds ← readDigits rest
    return d :: ds
  | c :: rest => do
    let d ← asciiDigit? c
    let ds ← readDigits rest
    return d :: ds

/-- The number that a list of decimal digits writes. -/
def ofDigits (ds : List Nat) : Nat := ds.foldl (fun n d => n * 10 + d) 0

/-- A sign, if there is one, and what follows it; the flag says that the number is negative. -/
def splitSign : List Char → Bool × List Char
  | '-' :: rest => (true, rest)
  | '+' :: rest => (false, rest)
  | cs => (false, cs)

/-! ## Integers -/

/-- An integer numeral may not have more digits than this. -/
def integerDigitLimit : Nat := 4300

/-- **An integer numeral.** -/
def readInteger (s : String) : Option Int := do
  let (negative, body) := splitSign (numeralChars s)
  let ds ← readDigits body
  if ds.length > integerDigitLimit then none
  else
    let n : Int := ofDigits ds
    return if negative then -n else n

/-! ## Decimal numbers -/

/-- A number as typed, before it is rounded. -/
inductive DecimalNumber where
  /-- `mantissa` times ten to the `exponent`, negated if the flag is set. -/
  | finite (negative : Bool) (mantissa : Nat) (exponent : Int)
  | infinite (negative : Bool)
  | undefined
  deriving DecidableEq, Repr

/-- The exponent of a numeral: nothing, or `e`, a sign and digits. -/
def readExponent : List Char → Option Int
  | [] => some 0
  | e :: rest =>
    if e == 'e' || e == 'E' then do
      let (negative, body) := splitSign rest
      let ds ← readDigits body
      let n : Int := ofDigits ds
      return if negative then -n else n
    else none

/-- The digits of a mantissa without exponent, and how many of them stand behind the point. -/
def readMantissa (cs : List Char) : Option (Nat × Nat) :=
  let whole := cs.takeWhile (· != '.')
  match cs.dropWhile (· != '.') with
  | [] => do
    let ds ← readDigits whole
    return (ofDigits ds, 0)
  | _ :: fraction => do
    let front ← if whole.isEmpty then some [] else readDigits whole
    let back ← if fraction.isEmpty then some [] else readDigits fraction
    if front.isEmpty && back.isEmpty then none
    else return (ofDigits (front ++ back), back.length)

/-- The names of infinity and of the undefined value, in any mixture of cases. -/
def readSpecial (negative : Bool) (cs : List Char) : Option DecimalNumber :=
  let name := String.ofList (cs.map Char.toLower)
  if name == "inf" || name == "infinity" then some (.infinite negative)
  else if name == "nan" then some .undefined
  else none

/-- **A decimal numeral.** -/
def readDecimal (s : String) : Option DecimalNumber :=
  let (negative, body) := splitSign (numeralChars s)
  match readSpecial negative body with
  | some special => some special
  | none => do
    let isExponentMark (c : Char) : Bool := c == 'e' || c == 'E'
    let (mantissa, places) ← readMantissa (body.takeWhile (!isExponentMark ·))
    let exponent ← readExponent (body.dropWhile (!isExponentMark ·))
    return .finite negative mantissa (exponent - places)

/-- How many decimal digits a positive number has, at least; used to bound its magnitude. -/
def decimalLength (n : Nat) : Nat := Nat.log2 n * 301 / 1000

/-- **The nearest binary double.**  Magnitudes far beyond the largest double are infinite and those
    far below the least one are zero, so no power of ten is ever computed that is not needed. -/
def DecimalNumber.toFloat : DecimalNumber → Float
  | .undefined => 0.0 / 0.0
  | .infinite negative => if negative then -1.0 / 0.0 else 1.0 / 0.0
  | .finite negative mantissa exponent =>
    let magnitude : Float :=
      if mantissa = 0 then 0.0
      else if exponent + decimalLength mantissa > 400 then 1.0 / 0.0
      else if exponent + decimalLength mantissa < -400 then 0.0
      else Float.ofScientific mantissa (exponent < 0) exponent.natAbs
    if negative then -magnitude else magnitude

example : readInteger " -1_0 " = some (-10) := by decide +kernel
example : readInteger "1__0" = none := by decide +kernel
example : readDecimal "1.5e-3" = some (.finite false 15 (-4)) := by decide +kernel
example : readDecimal ".5" = some (.finite false 5 (-1)) := by decide +kernel
example : readDecimal "-Inf" = some (.infinite true) := by decide +kernel
example : readDecimal "." = none := by decide +kernel

end Ls8.Text
