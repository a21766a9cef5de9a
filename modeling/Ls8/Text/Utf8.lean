/-
  Strict decoding of UTF-8.

  A decoder reads bytes one at a time.  Between two bytes it knows the bits of the current
  character so far, how many bytes are still missing, and in which range the next one has to lie;
  the range excludes overlong forms and code points past the last one.  A surrogate is no character
  either, but it is refused only at its last byte.  A text can therefore end in three ways:
  complete, with a byte that fits nowhere, or in the middle of a character.
-/

namespace Ls8.Text

/-- A character of which some bytes have been read. -/
structure PartialChar where
  /-- The bits read so far. -/
  bits : Nat
  /-- How many bytes are missing after the next one. -/
  moreAfterNext : Nat
  /-- The least byte that may come next. -/
  low : UInt8
  /-- The greatest byte that may come next. -/
  high : UInt8

/-- How a run of bytes ends. -/
inductive Utf8Ending where
  /-- After a whole character. -/
  | complete
  /-- At a byte that cannot stand there, with so many bytes left, that byte included. -/
  | malformed (left : Nat)
  /-- Inside a character. -/
  | truncated
  deriving DecidableEq, Repr

/-- What the first byte of a character says about the rest of it. -/
inductive Utf8Lead where
  | ascii (c : Char)
  | more (p : PartialChar)
  | invalid

/-- The role of a byte at the start of a character. -/
def utf8Lead (b : UInt8) : Utf8Lead :=
  let n := b.toNat
  if n < 0x80 then .ascii (Char.ofNat n)
  else if n < 0xc2 then .invalid
  else if n < 0xe0 then .more ⟨n - 0xc0, 0, 0x80, 0xbf⟩
  else if n = 0xe0 then .more ⟨0, 1, 0xa0, 0xbf⟩
  else if n < 0xf0 then .more ⟨n - 0xe0, 1, 0x80, 0xbf⟩
  else if n = 0xf0 then .more ⟨0, 2, 0x90, 0xbf⟩
  else if n < 0xf4 then .more ⟨n - 0xf0, 2, 0x80, 0xbf⟩
  else if n = 0xf4 then .more ⟨4, 2, 0x80, 0x8f⟩
  else .invalid

/-- Whether the bits read so far are those of a surrogate that lacks its last byte. -/
def PartialChar.isSurrogate (p : PartialChar) : Bool := 0x360 ≤ p.bits && p.bits < 0x380

/-- Whether a byte may come next. -/
def PartialChar.accepts (p : PartialChar) (b : UInt8) : Bool :=
  p.low ≤ b && b ≤ p.high && !p.isSurrogate

/-- The characters of a run of bytes up to its end or its first bad byte, and how it ends. -/
def decodeFrom : Option PartialChar → List UInt8 → List Char × Utf8Ending
  | none, [] => ([], .complete)
  | some _, [] => ([], .truncated)
  | none, b :: rest =>
    match utf8Lead b with
    | .ascii c => let (cs, ending) := decodeFrom none rest; (c :: cs, ending)
    | .more p => decodeFrom (some p) rest
    | .invalid => ([], .malformed (rest.length + 1))
  | some p, b :: rest =>
    if p.accepts b then
      let bits := p.bits * 64 + (b.toNat - 0x80)
      match p.moreAfterNext with
      | 0 => let (cs, ending) := decodeFrom none rest; (Char.ofNat bits :: cs, ending)
      | k + 1 => decodeFrom (some ⟨bits, k, 0x80, 0xbf⟩) rest
    else ([], .malformed (rest.length + 1))

/-- **Strict decoding:** the characters, and how the bytes end. -/
def decodeUtf8 (bytes : List UInt8) : List Char × Utf8Ending := decodeFrom none bytes

/-- ASCII bytes are their own characters, whatever follows. -/
theorem decodeUtf8_ascii_cons {b : UInt8} (h : b.toNat < 0x80) (rest : List UInt8) :
    decodeUtf8 (b :: rest) = (Char.ofNat b.toNat :: (decodeUtf8 rest).1, (decodeUtf8 rest).2) := by
  simp [decodeUtf8, decodeFrom, utf8Lead, h]

example : decodeUtf8 [0x31, 0xc3, 0xa9] = (['1', 'é'], .complete) := by decide +kernel
example : decodeUtf8 [0x31, 0xe2, 0x82] = (['1'], .truncated) := by decide +kernel
example : decodeUtf8 [0xed, 0xa0, 0x80] = ([], .malformed 1) := by decide +kernel

end Ls8.Text
