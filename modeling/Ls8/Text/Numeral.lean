/-
  Numerals in a base, and the layout of a signed number in a field.

  A hexadecimal text of this machine is always built the same way: the sign, then a mark such as
  `0x` (or nothing), then zeros, then the digits; sign and mark count towards the width of the
  field.  So there is one layout, `field`, and the shapes in use are three settings of it:
  `address` (`0x0a`, width four with the mark), `plainHex` (`0xa`) and `shortHex` (`0a`).

  Main statement: the two digits of a byte tell bytes apart (`byteUpper_injective`).
-/

namespace Ls8.Text

/-! ## Digits -/

/-- The digit of value `d < 16`; `upper` chooses the case of the letters. -/
def digitChar (upper : Bool) (d : Nat) : Char :=
  if d < 10 then Char.ofNat ('0'.toNat + d)
  else Char.ofNat ((if upper then 'A'.toNat else 'a'.toNat) + (d - 10))

/-- The digits of `n` in `base`, the most significant first; zero has one digit.  (A base below two
    writes no numerals: it gives the one character for `n`.) -/
def digits (upper : Bool) (base : Nat) (n : Nat) : List Char :=
  if base < 2 ∨ n < base then [digitChar upper n]
  else digits upper base (n / base) ++ [digitChar upper (n % base)]
termination_by n
decreasing_by exact Nat.div_lt_self (by omega) (by omega)

/-- The digits of `n` in base sixteen. -/
abbrev hexDigits (upper : Bool) (n : Nat) : List Char := digits upper 16 n

/-- The digits of `n` in base ten. -/
abbrev decimalDigits (n : Nat) : List Char := digits false 10 n

/-- The digits of `n` in base two. -/
abbrev binaryDigits (n : Nat) : List Char := digits false 2 n

/-- The digits of `n` in base eight. -/
abbrev octalDigits (n : Nat) : List Char := digits false 8 n

/-- A numeral is never empty. -/
theorem digits_ne_nil (upper : Bool) (base n : Nat) : digits upper base n ≠ [] := by
  rw [digits]
  split
  · exact List.cons_ne_nil _ _
  · exact List.append_ne_nil_of_right_ne_nil _ (List.cons_ne_nil _ _)

/-- A numeral consists of digits of its base. -/
theorem exists_digit_of_mem {upper : Bool} {base n : Nat} (hbase : 2 ≤ base) {c : Char}
    (h : c ∈ digits upper base n) : ∃ d < base, c = digitChar upper d := by
  induction n using Nat.strongRecOn with
  | ind n ih =>
    rw [digits] at h
    split at h
    · next hsmall =>
      exact ⟨n, by omega, List.mem_singleton.mp h⟩
    · next hlarge =>
      rcases List.mem_append.mp h with hfront | hlast
      · exact ih (n / base) (Nat.div_lt_self (by omega) (by omega)) hfront
      · exact ⟨n % base, Nat.mod_lt n (by omega), List.mem_singleton.mp hlast⟩

/-! ## Fields -/

/-- **A signed number in a field.**  Sign, mark, zeros and digits, in this order, with as many zeros
    as bring the whole to `width` characters. -/
def field (sign mark : List Char) (width : Nat) (numeral : List Char) : List Char :=
  sign ++ mark ++
    List.replicate (width - (sign.length + mark.length + numeral.length)) '0' ++ numeral

/-- The sign of a number: `-` below zero, else nothing. -/
def minus (x : Int) : List Char := if x < 0 then ['-'] else []

/-- An integer in base sixteen, in a field of `width` characters. -/
def hexField (mark : String) (width : Nat) (x : Int) : String :=
  String.ofList (field (minus x) mark.toList width (hexDigits false x.natAbs))

/-- **An address:** `0x0a`, `0x100`, `-0x1`; at least four characters, the mark included. -/
def address (x : Int) : String := hexField "0x" 4 x

/-- A hexadecimal number with its mark and no padding: `0x0`, `-0x1`. -/
def plainHex (x : Int) : String := hexField "0x" 0 x

/-- Two lowercase digits without a mark, as log lines show bytes: `0a`, `100`, `-1`. -/
def shortHex (x : Int) : String := hexField "" 2 x

/-- The decimal numeral of an integer. -/
def decimal (x : Int) : String := String.ofList (minus x ++ decimalDigits x.natAbs)

/-- The eight binary digits of a byte. -/
def byteBinary (b : UInt8) : String := String.ofList (field [] [] 8 (binaryDigits b.toNat))

/-- The two uppercase digits of a byte, as trace lines show it. -/
def byteUpper (b : UInt8) : List Char :=
  [digitChar true (b.toNat / 16), digitChar true (b.toNat % 16)]

/-- The two lowercase digits of a byte, as memory dumps show it. -/
def byteLower (b : UInt8) : List Char :=
  [digitChar false (b.toNat / 16), digitChar false (b.toNat % 16)]

/-- The lowercase digits of a run of bytes, two each, without a separator. -/
def bytesHex (bytes : List UInt8) : String := String.ofList (bytes.flatMap byteLower)

/-- Distinct digit values below sixteen have distinct characters. -/
theorem digitChar_injective (upper : Bool) {d e : Nat} (hd : d < 16) (he : e < 16)
    (h : digitChar upper d = digitChar upper e) : d = e := by
  have key : ∀ (u : Bool) (x y : Fin 16), digitChar u x = digitChar u y → x = y := by decide
  have := key upper ⟨d, hd⟩ ⟨e, he⟩ h
  exact Fin.mk.inj_iff.mp this

/-- The two digits of a byte tell bytes apart. -/
theorem byteUpper_injective {a b : UInt8} (h : byteUpper a = byteUpper b) : a = b := by
  have ha := a.toNat_lt
  have hb := b.toNat_lt
  simp only [byteUpper, List.cons.injEq, and_true] at h
  have h1 := digitChar_injective true (by omega) (by omega) h.1
  have h2 := digitChar_injective true (by omega) (by omega) h.2
  exact UInt8.toNat_inj.mp (by omega)

/- The shapes in use. -/
example : address 10 = "0x0a" := by cbv
example : address (-1) = "-0x1" := by cbv
example : address 256 = "0x100" := by cbv
example : plainHex 0 = "0x0" := by cbv
example : shortHex (-1) = "-1" := by cbv
example : byteBinary 5 = "00000101" := by cbv

end Ls8.Text
