/-
  Seconds: the numbers that tell the time.

  A number of seconds is a binary double.  A double may be undefined, as the difference of two
  infinities is, and an undefined double has a sign as well, which no calculation looks at but which
  a person who is shown the sixty-four bits can see.  It is kept here beside the double.

  1. **Order.**  Numbers are compared by their values, so an undefined number is neither less nor
     greater than any other one, nor equal to one.

  2. **Sign.**  A sum or difference with an undefined operand is that operand, the first one if both
     are undefined.  One that is undefined for another reason has a minus sign.
-/

namespace Ls8

/-- **A number of seconds.** -/
structure Seconds where
  value : Float
  /-- Whether an undefined number has a minus sign. -/
  negative : Bool := false

namespace Seconds

instance : Coe Float Seconds := ⟨fun x => { value := x }⟩

instance : Zero Seconds := ⟨{ value := 0 }⟩

instance : OfScientific Seconds := ⟨fun m s e => { value := OfScientific.ofScientific m s e }⟩

/-- Whether a number is undefined. -/
def isUndefined (a : Seconds) : Bool := a.value.isNaN

/-- The sign of an undefined sum or difference: that of the first undefined operand, and minus if
    there is none. -/
def undefinedSign (a b : Seconds) : Bool :=
  if a.isUndefined then a.negative else if b.isUndefined then b.negative else true

instance : Add Seconds := ⟨fun a b => ⟨a.value + b.value, undefinedSign a b⟩⟩

instance : Sub Seconds := ⟨fun a b => ⟨a.value - b.value, undefinedSign a b⟩⟩

instance : LE Seconds := ⟨fun a b => a.value ≤ b.value⟩

instance : LT Seconds := ⟨fun a b => a.value < b.value⟩

instance : DecidableLE Seconds := fun a b => inferInstanceAs (Decidable (a.value ≤ b.value))

instance : DecidableLT Seconds := fun a b => inferInstanceAs (Decidable (a.value < b.value))

/-- **The sixty-four bits of a number.**  All undefined numbers of one sign have the same bits. -/
def bits (a : Seconds) : Nat :=
  if a.isUndefined then (if a.negative then 0xfff8000000000000 else 0x7ff8000000000000)
  else a.value.toBits.toNat

example : (1.5 + 0.5 : Seconds).bits = 0x4000000000000000 := by decide +kernel
example : (⟨1 / 0, false⟩ - ⟨1 / 0, false⟩ : Seconds).bits = 0xfff8000000000000 := by decide +kernel
example : (⟨0 / 0, false⟩ + 1.0 : Seconds).bits = 0x7ff8000000000000 := by decide +kernel

end Seconds

end Ls8
