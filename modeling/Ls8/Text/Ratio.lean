/-
  Ratios of natural numbers, and doubles as such ratios.

  Numbers with a point are written by exact arithmetic: a finite double is `mantissa * 2 ^ exponent`,
  hence a ratio of natural numbers, and every digit of its text is decided by comparing products.
-/

namespace Ls8.Text

/-! ## Ratios -/

/-- A ratio of natural numbers; its denominator is meant to be positive. -/
structure Ratio where
  numerator : Nat
  denominator : Nat
  deriving DecidableEq, Repr

namespace Ratio

/-- A ratio times a power of ten. -/
def scale (r : Ratio) (k : Int) : Ratio where
  numerator := r.numerator * Nat.pow 10 k.toNat
  denominator := r.denominator * Nat.pow 10 (-k).toNat

/-- The whole part of a ratio. -/
def floor (r : Ratio) : Nat := r.numerator / r.denominator

/-- Whether a ratio lies below another one. -/
def below (r s : Ratio) : Bool := r.numerator * s.denominator < s.numerator * r.denominator

/-- **The nearest whole number;** of two that are equally near the even one. -/
def round (r : Ratio) : Nat :=
  let q := r.numerator / r.denominator
  let rest := r.numerator % r.denominator
  if 2 * rest < r.denominator then q
  else if r.denominator < 2 * rest then q + 1
  else if q % 2 = 0 then q
  else q + 1

/-- **The decimal exponent** of a positive ratio: the greatest `k` with `10 ^ k` not above it.  The
    binary logarithms give it but for one. -/
def decimalExponent (r : Ratio) : Int :=
  let bits : Int := r.numerator.log2 - r.denominator.log2
  let guess := bits * 30103 / 100000
  if 1 ≤ (r.scale (-(guess + 1))).floor then guess + 1
  else if 1 ≤ (r.scale (-guess)).floor then guess
  else guess - 1

end Ratio

/-! ## Doubles -/

/-- A finite double without its sign: `mantissa * 2 ^ exponent`. -/
structure Binary where
  mantissa : Nat
  exponent : Int
  /-- The gap to the value below is half as wide as the gap to the value above. -/
  narrowBelow : Bool
  deriving DecidableEq, Repr

/-- What a double stands for, apart from its sign. -/
inductive Magnitude where
  | finite (b : Binary)
  | infinite
  | undefined
  deriving DecidableEq, Repr

/-- A natural number times a power of two. -/
def Ratio.ofBinary (mantissa : Nat) (exponent : Int) : Ratio where
  numerator := mantissa * Nat.pow 2 exponent.toNat
  denominator := Nat.pow 2 (-exponent).toNat

/-- The value of a finite double. -/
def Binary.ratio (b : Binary) : Ratio := .ofBinary b.mantissa b.exponent

/-- **The magnitude of a double,** from its exponent field and its fraction field. -/
def magnitude (x : Float) : Magnitude :=
  let bits := x.toBits.toNat
  let exponent := bits / 0x10000000000000 % 0x800
  let fraction := bits % 0x10000000000000
  if exponent = 0x7ff then if fraction = 0 then .infinite else .undefined
  else if exponent = 0 then .finite ⟨fraction, -1074, false⟩
  else
    .finite ⟨0x10000000000000 + fraction, (exponent : Int) - 1075, fraction = 0 && 1 < exponent⟩

/-- Whether a double has a minus sign; the undefined value has none. -/
def isNegative (x : Float) : Bool :=
  0x8000000000000000 ≤ x.toBits.toNat && magnitude x != .undefined

end Ls8.Text
