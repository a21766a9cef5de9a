import Ls8.Text.Numeral
import Ls8.Text.Ratio

/-
  Numbers with a point, as text.

  The plain text of a double has the fewest digits that read back as the same double; of several
  such numbers it is the one nearest to the double.  Numbers from `0.0001` up to ten to the
  sixteenth are written out, others with an exponent.

  A double can also be written with a given number of places, or with a given number of digits.
  These digits are those of its exact value, rounded to the nearest, a tie to the even digit.
-/

namespace Ls8.Text

/-! ## Digits -/

/-- The first digits of a positive number, and the power of ten that the first of them counts. -/
structure Leading where
  digits : List Char
  exponent : Int
  deriving DecidableEq, Repr

/-- A number in units of a power of ten. -/
def Leading.ofGrid (c : Nat) (unit : Int) : Leading where
  digits := decimalDigits c
  exponent := unit + (decimalDigits c).length - 1

/-- Without the zeros at the end. -/
def dropZeros (cs : List Char) : List Char := (cs.reverse.dropWhile (· == '0')).reverse

/-- Whether a number in units of a power of ten is read as the double `b`: it lies between the
    midpoints to the neighbours of `b`, which themselves count if the mantissa of `b` is even. -/
def Binary.readsBack (b : Binary) (c : Nat) (unit : Int) : Bool :=
  let low := Ratio.ofBinary (4 * b.mantissa - (if b.narrowBelow then 1 else 2)) (b.exponent - 2)
  let high := Ratio.ofBinary (4 * b.mantissa + 2) (b.exponent - 2)
  let x := (Ratio.mk c 1).scale unit
  if b.mantissa % 2 = 0 then !x.below low && !high.below x else low.below x && x.below high

/-- The number of so many digits that is nearest to the double `b` among its two neighbours that
    read back, if there is one. -/
def Binary.nearest? (b : Binary) (exponent : Int) (count : Nat) : Option Leading :=
  let unit := exponent + 1 - count
  let scaled := b.ratio.scale (-unit)
  let other := if scaled.round = scaled.floor then scaled.floor + 1 else scaled.floor
  if b.readsBack scaled.round unit then some (.ofGrid scaled.round unit)
  else if b.readsBack other unit then some (.ofGrid other unit)
  else none

/-- **The fewest digits** that read back as the positive double `b`.  Seventeen are enough. -/
def Binary.shortest (b : Binary) : Leading :=
  let exponent := b.ratio.decimalExponent
  let found := (List.range 17).findSome? fun k => b.nearest? exponent (k + 1)
  found.getD (.ofGrid (b.ratio.scale (16 - exponent)).round (exponent - 16))

/-- More digits than any double has behind its first one. -/
def allDigits : Nat := 800

/-- More places than any double has. -/
def allPlaces : Nat := 1100

/-- **The first `count` digits,** rounded. -/
def Binary.leading (b : Binary) (count : Nat) : Leading :=
  if b.mantissa = 0 then ⟨List.replicate count '0', 0⟩
  else
    let exact := min count allDigits
    let exponent := b.ratio.decimalExponent
    let first := Leading.ofGrid (b.ratio.scale (exact - 1 - exponent)).round (exponent + 1 - exact)
    ⟨first.digits.take exact ++ List.replicate (count - exact) '0', first.exponent⟩

/-! ## Layouts -/

/-- The digits in front of the point and those behind it. -/
structure Layout where
  whole : List Char
  fraction : List Char
  /-- What is behind the digits. -/
  tail : List Char := []

namespace Layout

/-- A number that is written out. -/
def positional (l : Leading) : Layout :=
  if l.exponent < 0 then
    ⟨['0'], List.replicate (-l.exponent - 1).toNat '0' ++ l.digits, []⟩
  else
    let places := l.exponent.toNat + 1
    ⟨l.digits.take places ++ List.replicate (places - l.digits.length) '0', l.digits.drop places, []⟩

/-- The text of an exponent: its sign and at least two digits. -/
def exponentText (k : Int) : List Char :=
  'e' :: (if k < 0 then '-' else '+') :: field [] [] 2 (decimalDigits k.natAbs)

/-- A number with one digit in front of the point and an exponent. -/
def scientific (l : Leading) : Layout :=
  ⟨l.digits.take 1, l.digits.drop 1, exponentText l.exponent⟩

/-- A layout with its fraction cut behind the last digit that is not zero. -/
def short (l : Layout) : Layout := { l with fraction := dropZeros l.fraction }

/-- The characters of a layout; the point is there if it has to be, or if anything is behind it. -/
def chars (l : Layout) (point : Bool) : List Char :=
  l.whole ++ (if point || !l.fraction.isEmpty then '.' :: l.fraction else []) ++ l.tail

end Layout

/-! ## Numbers -/

/-- The plain text of a finite double without its sign. -/
def Binary.plain (b : Binary) : List Char :=
  if b.mantissa = 0 then "0.0".toList
  else
    let l := b.shortest
    let l := { l with digits := dropZeros l.digits }
    if -4 ≤ l.exponent ∧ l.exponent < 16 then
      let layout := Layout.positional l
      if layout.fraction.isEmpty then { layout with fraction := ['0'] }.chars false
      else layout.chars false
    else (Layout.scientific l).chars false

/-- How a number with a point is written. -/
inductive RealStyle where
  /-- With so many places. -/
  | fixed
  /-- With an exponent, and so many digits behind the point. -/
  | scientific
  /-- With so many digits, written out unless the exponent is below `-4` or too large for them. -/
  | general
  deriving DecidableEq, Repr

/-- A finite double with a given precision, without its sign.  The flag keeps the point, and zeros
    at the end that are otherwise dropped. -/
def Binary.inStyle (b : Binary) (style : RealStyle) (precision : Nat) (full : Bool) : List Char :=
  match style with
  | .fixed =>
    let exact := min precision allPlaces
    let digits := field [] [] (exact + 1) (decimalDigits (b.ratio.scale exact).round)
    let whole := digits.length - exact
    let zeros := List.replicate (precision - exact) '0'
    (Layout.mk (digits.take whole) (digits.drop whole ++ zeros) []).chars full
  | .scientific => (Layout.scientific (b.leading (precision + 1))).chars full
  | .general =>
    let count := max precision 1
    let l := b.leading count
    let layout :=
      if -4 ≤ l.exponent ∧ l.exponent < count then Layout.positional l else Layout.scientific l
    (if full then layout else layout.short).chars full

/-- The characters of a double without its sign, given those of a finite one. -/
def realChars (write : Binary → List Char) (x : Float) : List Char :=
  match magnitude x with
  | .finite b => write b
  | .infinite => "inf".toList
  | .undefined => "nan".toList

/-- **The plain text of a double.** -/
def realText (x : Float) : String :=
  String.ofList ((if isNegative x then ['-'] else []) ++ realChars Binary.plain x)

example : realText 0.1 = "0.1" := by decide +kernel
example : realText (-0.0) = "-0.0" := by decide +kernel
example : realText 1e16 = "1e+16" := by decide +kernel
example : realText 1.5e-7 = "1.5e-07" := by decide +kernel
example : realText 5e-324 = "5e-324" := by decide +kernel
example : realText 2.98023223876953125e-8 = "2.9802322387695312e-08" := by decide +kernel

end Ls8.Text
