import Ls8.Text.Utf8

/-
  Decoding undoes encoding.

  1. **Forms** (`Spells`).  A character has one to four bytes, and the number of its code point is spread
     over them, six bits to each byte after the first.  It takes the shortest form that has room for the
     number, and surrogates have none.

  2. **Encoding** gives a character its form (`spells_utf8EncodeChar`), and no other bytes have it
     (`Spells.eq_utf8EncodeChar`).

  3. **Decoding.**  The decoder knows no forms, only the range in which the next byte has to lie; the
     range after the first byte is what keeps out forms that are too long, and numbers past the last code
     point.  It passes over a form (`decodeUtf8_spells`), and over nothing else (`exists_spells`).

  Main statement: bytes decode to a text without an error exactly if they are its encoding
  (`decodeUtf8_eq_complete_iff`).
-/

namespace Ls8.Text

/-! ## Forms -/

/-- A byte after the first one of a character. -/
def IsTail (b : UInt8) : Prop := 0x80 ≤ b.toNat ∧ b.toNat ≤ 0xbf

/-- A number with the six bits of one more byte behind it. -/
def withTail (n : Nat) (b : UInt8) : Nat := n * 64 + (b.toNat - 0x80)

theorem withTail_eq (n : Nat) (b : UInt8) : withTail n b = n * 64 + (b.toNat - 0x80) := rfl

/-- **The bytes of a code point.** -/
inductive Spells : List UInt8 → Nat → Prop where
  | one {a : UInt8} {n : Nat} (ha : a.toNat < 0x80) (hn : a.toNat = n) : Spells [a] n
  | two {a b : UInt8} {n : Nat} (ha : 0xc0 ≤ a.toNat ∧ a.toNat < 0xe0) (hb : IsTail b)
    (hn : withTail (a.toNat - 0xc0) b = n) (hshort : 0x80 ≤ n) : Spells [a, b] n
  | three {a b c : UInt8} {n : Nat} (ha : 0xe0 ≤ a.toNat ∧ a.toNat < 0xf0) (hb : IsTail b)
    (hc : IsTail c) (hn : withTail (withTail (a.toNat - 0xe0) b) c = n) (hshort : 0x800 ≤ n)
    (hsurrogate : ¬ (0xd800 ≤ n ∧ n < 0xe000)) : Spells [a, b, c] n
  | four {a b c d : UInt8} {n : Nat} (ha : 0xf0 ≤ a.toNat) (hb : IsTail b) (hc : IsTail c)
    (hd : IsTail d) (hn : withTail (withTail (withTail (a.toNat - 0xf0) b) c) d = n)
    (hshort : 0x10000 ≤ n) (hlast : n < 0x110000) : Spells [a, b, c, d] n

/-- A code point that has a form is that of a character. -/
theorem Spells.isValidChar {bytes : List UInt8} {n : Nat} (h : Spells bytes n) : n.isValidChar := by
  rw [Nat.isValidChar]
  cases h with
  | one ha hn => omega
  | @two a b n ha hb hn hshort =>
    have hbits := withTail_eq (a.toNat - 0xc0) b
    rw [IsTail] at hb
    omega
  | @three a b c n ha hb hc hn hshort hsurrogate =>
    have hbits := withTail_eq (a.toNat - 0xe0) b
    have hbits' := withTail_eq (withTail (a.toNat - 0xe0) b) c
    rw [IsTail] at hb hc
    omega
  | four ha hb hc hd hn hshort hlast => omega

/-! ## Encoding -/

/-- The byte behind others that holds the lowest six bits of a number. -/
theorem isTail_ofNat (n : Nat) : IsTail (UInt8.ofNat (n % 64 + 128)) := by
  rw [IsTail, UInt8.toNat_ofNat_of_lt' (show _ < 256 by omega)]
  omega

/-- A number is that of its higher bits with its lowest six behind them. -/
theorem withTail_ofNat {m n : Nat} (h : m = n / 64) :
    withTail m (UInt8.ofNat (n % 64 + 128)) = n := by
  have hbyte : (UInt8.ofNat (n % 64 + 128)).toNat = n % 64 + 128 :=
    UInt8.toNat_ofNat_of_lt' (show _ < 256 by omega)
  have hvalue := withTail_eq m (UInt8.ofNat (n % 64 + 128))
  omega

/-- **The encoding of a character** has its form. -/
theorem spells_utf8EncodeChar (c : Char) : Spells (String.utf8EncodeChar c) c.toNat := by
  have hvalid : c.toNat < 0xd800 ∨ 0xdfff < c.toNat ∧ c.toNat < 0x110000 := c.valid
  have hcode : c.val.toNat = c.toNat := rfl
  simp only [String.utf8EncodeChar, hcode]
  revert hvalid
  generalize c.toNat = n
  intro hvalid
  split
  · have hbyte : (UInt8.ofNat n).toNat = n := UInt8.toNat_ofNat_of_lt' (show _ < 256 by omega)
    exact .one (by omega) hbyte
  split
  · have hbyte : (UInt8.ofNat (n / 64 % 32 + 192)).toNat = n / 64 % 32 + 192 :=
      UInt8.toNat_ofNat_of_lt' (show _ < 256 by omega)
    exact .two (by omega) (isTail_ofNat n) (withTail_ofNat (by omega)) (by omega)
  split
  · have hbyte : (UInt8.ofNat (n / 4096 % 16 + 224)).toNat = n / 4096 % 16 + 224 :=
      UInt8.toNat_ofNat_of_lt' (show _ < 256 by omega)
    have hsecond : withTail ((UInt8.ofNat (n / 4096 % 16 + 224)).toNat - 0xe0)
        (UInt8.ofNat (n / 64 % 64 + 128)) = n / 64 := withTail_ofNat (by omega)
    exact .three (by omega) (isTail_ofNat _) (isTail_ofNat n) (withTail_ofNat hsecond) (by omega)
      (by omega)
  · have hbyte : (UInt8.ofNat (n / 262144 % 8 + 240)).toNat = n / 262144 % 8 + 240 :=
      UInt8.toNat_ofNat_of_lt' (show _ < 256 by omega)
    have hsecond : withTail ((UInt8.ofNat (n / 262144 % 8 + 240)).toNat - 0xf0)
        (UInt8.ofNat (n / 4096 % 64 + 128)) = n / 4096 := withTail_ofNat (by omega)
    have hthird : withTail _ (UInt8.ofNat (n / 64 % 64 + 128)) = n / 64 :=
      withTail_ofNat (hsecond.trans (by omega))
    exact .four (by omega) (isTail_ofNat _) (isTail_ofNat _) (isTail_ofNat n)
      (withTail_ofNat hthird) (by omega) (by omega)

/-- **No other bytes** have the form of a character. -/
theorem Spells.eq_utf8EncodeChar {bytes : List UInt8} {c : Char} (h : Spells bytes c.toNat) :
    bytes = String.utf8EncodeChar c := by
  have hcode : c.val.toNat = c.toNat := rfl
  simp only [String.utf8EncodeChar, hcode]
  revert h
  generalize c.toNat = n
  intro h
  have written {k : Nat} {b : UInt8} (hk : k = b.toNat) : b = UInt8.ofNat k := by
    rw [hk, UInt8.ofNat_toNat]
  cases h with
  | one ha hn => rw [if_pos (by omega), ← written hn.symm]
  | @two a b n ha hb hn hshort =>
    have hbits := withTail_eq (a.toNat - 0xc0) b
    rw [IsTail] at hb
    rw [if_neg (by omega), if_pos (by omega), ← written (b := a) (by omega),
      ← written (b := b) (by omega)]
  | @three a b c n ha hb hc hn hshort hsurrogate =>
    have hbits := withTail_eq (a.toNat - 0xe0) b
    have hbits' := withTail_eq (withTail (a.toNat - 0xe0) b) c
    rw [IsTail] at hb hc
    rw [if_neg (by omega), if_neg (by omega), if_pos (by omega), ← written (b := a) (by omega),
      ← written (b := b) (by omega), ← written (b := c) (by omega)]
  | @four a b c d n ha hb hc hd hn hshort hlast =>
    have hbits := withTail_eq (a.toNat - 0xf0) b
    have hbits' := withTail_eq (withTail (a.toNat - 0xf0) b) c
    have hbits'' := withTail_eq (withTail (withTail (a.toNat - 0xf0) b) c) d
    rw [IsTail] at hb hc hd
    rw [if_neg (by omega), if_neg (by omega), if_neg (by omega), ← written (b := a) (by omega),
      ← written (b := b) (by omega), ← written (b := c) (by omega), ← written (b := d) (by omega)]

/-! ## Decoding -/

variable {a b : UInt8} {rest : List UInt8}

theorem utf8Lead_two (h : 0xc2 ≤ a.toNat ∧ a.toNat < 0xe0) :
    utf8Lead a = .more ⟨a.toNat - 0xc0, 0, 0x80, 0xbf⟩ := by
  rw [utf8Lead]
  show (if a.toNat < 0x80 then _ else _) = _
  rw [if_neg (by omega), if_neg (by omega), if_pos h.2]

/-- The first byte of three. -/
theorem utf8Lead_three (h : 0xe0 ≤ a.toNat ∧ a.toNat < 0xf0) :
    utf8Lead a = .more ⟨a.toNat - 0xe0, 1, if a.toNat = 0xe0 then 0xa0 else 0x80, 0xbf⟩ := by
  rw [utf8Lead]
  show (if a.toNat < 0x80 then _ else _) = _
  rw [if_neg (by omega), if_neg (by omega), if_neg (by omega)]
  split
  · rename_i heq
    rw [heq]
  · rw [if_pos h.2]

/-- The first byte of four. -/
theorem utf8Lead_four (h : 0xf0 ≤ a.toNat ∧ a.toNat < 0xf5) :
    utf8Lead a = .more ⟨a.toNat - 0xf0, 2, if a.toNat = 0xf0 then 0x90 else 0x80,
      if a.toNat = 0xf4 then 0x8f else 0xbf⟩ := by
  rw [utf8Lead]
  show (if a.toNat < 0x80 then _ else _) = _
  rw [if_neg (by omega), if_neg (by omega), if_neg (by omega), if_neg (by omega), if_neg (by omega)]
  by_cases hfirst : a.toNat = 0xf0
  · rw [if_pos hfirst, hfirst]
    rfl
  · rw [if_neg hfirst, if_neg hfirst]
    by_cases hlast : a.toNat = 0xf4
    · rw [if_neg (by omega), if_pos hlast, if_pos hlast, hlast]
    · rw [if_pos (by omega), if_neg hlast]

/-- The bytes that begin nothing. -/
theorem utf8Lead_invalid (h : 0x80 ≤ a.toNat ∧ a.toNat < 0xc2 ∨ 0xf5 ≤ a.toNat) :
    utf8Lead a = .invalid := by
  rw [utf8Lead]
  show (if a.toNat < 0x80 then _ else _) = _
  rw [if_neg (by omega)]
  rcases h with h | h
  · rw [if_pos h.2]
  · rw [if_neg (by omega), if_neg (by omega), if_neg (by omega), if_neg (by omega), if_neg (by omega),
      if_neg (by omega), if_neg (by omega)]

theorem accepts_iff {bits more : Nat} {low high : UInt8} :
    (⟨bits, more, low, high⟩ : PartialChar).accepts b = true ↔
      low.toNat ≤ b.toNat ∧ b.toNat ≤ high.toNat ∧ ¬ (0x360 ≤ bits ∧ bits < 0x380) := by
  simp only [PartialChar.accepts, PartialChar.isSurrogate, Bool.and_eq_true, decide_eq_true_eq,
    Bool.not_eq_true', ← Bool.not_eq_true, UInt8.le_iff_toNat_le, and_assoc]

/-- After the second byte every one from `0x80` to `0xbf` may come, except at the end of a surrogate. -/
theorem accepts_tail_iff (bits more : Nat) :
    (⟨bits, more, 0x80, 0xbf⟩ : PartialChar).accepts b = true ↔
      IsTail b ∧ ¬ (0x360 ≤ bits ∧ bits < 0x380) :=
  accepts_iff.trans and_assoc.symm

/-- The second byte of three. -/
theorem accepts_three_iff (a : UInt8) (bits : Nat) :
    (⟨bits, 1, if a.toNat = 0xe0 then 0xa0 else 0x80, 0xbf⟩ : PartialChar).accepts b = true ↔
      IsTail b ∧ (a.toNat = 0xe0 → 0xa0 ≤ b.toNat) ∧ ¬ (0x360 ≤ bits ∧ bits < 0x380) := by
  rw [accepts_iff, apply_ite UInt8.toNat, IsTail]
  split
  · have heq : a.toNat = 0xe0 := by assumption
    have hlow : UInt8.toNat 0xa0 = 0xa0 ∧ UInt8.toNat 0xbf = 0xbf := ⟨rfl, rfl⟩
    omega
  · have hlow : UInt8.toNat 0x80 = 0x80 ∧ UInt8.toNat 0xbf = 0xbf := ⟨rfl, rfl⟩
    omega

/-- The second byte of four. -/
theorem accepts_four_iff (a : UInt8) {bits : Nat} (hbits : bits < 0x360) :
    (⟨bits, 2, if a.toNat = 0xf0 then 0x90 else 0x80, if a.toNat = 0xf4 then 0x8f else 0xbf⟩ :
      PartialChar).accepts b = true ↔
      IsTail b ∧ (a.toNat = 0xf0 → 0x90 ≤ b.toNat) ∧ (a.toNat = 0xf4 → b.toNat ≤ 0x8f) := by
  rw [accepts_iff, apply_ite UInt8.toNat, apply_ite UInt8.toNat, IsTail]
  have hlow : UInt8.toNat 0x90 = 0x90 ∧ UInt8.toNat 0x80 = 0x80 := ⟨rfl, rfl⟩
  have hhigh : UInt8.toNat 0x8f = 0x8f ∧ UInt8.toNat 0xbf = 0xbf := ⟨rfl, rfl⟩
  split <;> split <;> omega

/-- A decoder in front of a byte after which more are missing. -/
theorem decodeFrom_next {bits k : Nat} {low high : UInt8}
    (hb : (⟨bits, k + 1, low, high⟩ : PartialChar).accepts b = true) :
    decodeFrom (some ⟨bits, k + 1, low, high⟩) (b :: rest) =
      decodeFrom (some ⟨withTail bits b, k, 0x80, 0xbf⟩) rest := by
  rw [decodeFrom, if_pos hb]
  rfl

/-- A decoder in front of the last byte of a character. -/
theorem decodeFrom_last {bits : Nat} {low high : UInt8}
    (hb : (⟨bits, 0, low, high⟩ : PartialChar).accepts b = true) :
    decodeFrom (some ⟨bits, 0, low, high⟩) (b :: rest) =
      (Char.ofNat (withTail bits b) :: (decodeUtf8 rest).1, (decodeUtf8 rest).2) := by
  rw [decodeFrom, if_pos hb]
  rfl

theorem decodeUtf8_more {p : PartialChar} (h : utf8Lead a = .more p) :
    decodeUtf8 (a :: rest) = decodeFrom (some p) rest := by
  rw [decodeUtf8, decodeFrom, h]

/-- **The decoder passes over a form.** -/
theorem decodeUtf8_spells {bytes : List UInt8} {n : Nat} (h : Spells bytes n) (rest : List UInt8) :
    decodeUtf8 (bytes ++ rest) =
      (Char.ofNat n :: (decodeUtf8 rest).1, (decodeUtf8 rest).2) := by
  cases h with
  | one ha hn =>
    rw [← hn]
    exact decodeUtf8_ascii_cons ha rest
  | @two a b n ha hb hn hshort =>
    have hbits := withTail_eq (a.toNat - 0xc0) b
    have hrange := hb
    rw [IsTail] at hrange
    have hlast := accepts_tail_iff (a.toNat - 0xc0) 0 |>.mpr ⟨hb, by omega⟩
    rw [List.cons_append, decodeUtf8_more (utf8Lead_two ⟨by omega, ha.2⟩), List.cons_append,
      decodeFrom_last hlast, hn, List.nil_append]
  | @three a b c n ha hb hc hn hshort hsurrogate =>
    have hbits := withTail_eq (a.toNat - 0xe0) b
    have hbits' := withTail_eq (withTail (a.toNat - 0xe0) b) c
    have hranges := And.intro hb hc
    simp only [IsTail] at hranges
    have hnext := accepts_three_iff a (a.toNat - 0xe0) |>.mpr ⟨hb, by omega, by omega⟩
    have hlast := accepts_tail_iff (withTail (a.toNat - 0xe0) b) 0 |>.mpr ⟨hc, by omega⟩
    rw [List.cons_append, decodeUtf8_more (utf8Lead_three ha), List.cons_append,
      decodeFrom_next hnext, List.cons_append, decodeFrom_last hlast, hn, List.nil_append]
  | @four a b c d n ha hb hc hd hn hshort hlast =>
    have hbits := withTail_eq (a.toNat - 0xf0) b
    have hbits' := withTail_eq (withTail (a.toNat - 0xf0) b) c
    have hbits'' := withTail_eq (withTail (withTail (a.toNat - 0xf0) b) c) d
    have hranges := And.intro hb (And.intro hc hd)
    simp only [IsTail] at hranges
    have hbelow : a.toNat - 0xf0 < 0x360 := by omega
    have hnext := accepts_four_iff a hbelow |>.mpr ⟨hb, by omega, by omega⟩
    have hnext' := accepts_tail_iff (withTail (a.toNat - 0xf0) b) 1 |>.mpr ⟨hc, by omega⟩
    have hlast := accepts_tail_iff (withTail (withTail (a.toNat - 0xf0) b) c) 0 |>.mpr
      ⟨hd, by omega⟩
    rw [List.cons_append, decodeUtf8_more (utf8Lead_four ⟨ha, by omega⟩), List.cons_append,
      decodeFrom_next hnext, List.cons_append, decodeFrom_next hnext', List.cons_append,
      decodeFrom_last hlast, hn, List.nil_append]

/-- A character is only finished by a byte that may come next. -/
theorem exists_of_decodeFrom {p : PartialChar} {bytes : List UInt8} {cs : List Char}
    (h : decodeFrom (some p) bytes = (cs, .complete)) :
    ∃ b rest, bytes = b :: rest ∧ p.accepts b = true := by
  cases bytes with
  | nil =>
    have hending := congrArg Prod.snd h
    cases hending
  | cons b rest =>
    refine ⟨b, rest, rfl, ?_⟩
    rw [decodeFrom] at h
    split at h
    · assumption
    · have hending := congrArg Prod.snd h
      cases hending

/-- **The decoder passes over nothing but forms.** -/
theorem exists_spells {cs : List Char} (h : decodeUtf8 (a :: rest) = (cs, .complete)) :
    ∃ head c tail cs', a :: rest = head ++ tail ∧ Spells head c.toNat ∧ cs = c :: cs' ∧
      decodeUtf8 tail = (cs', .complete) := by
  -- it is enough to find a form in front, as the decoder passes over it
  have passed (head : List UInt8) {tail : List UInt8} {n : Nat} (hsplit : a :: rest = head ++ tail)
      (hspells : Spells head n) : ∃ head c tail cs', a :: rest = head ++ tail ∧
        Spells head c.toNat ∧ cs = c :: cs' ∧ decodeUtf8 tail = (cs', .complete) := by
    rw [hsplit, decodeUtf8_spells hspells] at h
    obtain ⟨rfl, hending⟩ := Prod.mk.inj h
    have hcode : (Char.ofNat n).toNat = n := by
      rw [Char.ofNat, dif_pos hspells.isValidChar]
      rfl
    exact ⟨head, Char.ofNat n, tail, _, hsplit, by rwa [hcode], rfl, Prod.ext rfl hending⟩
  have hbyte := a.toNat_lt
  by_cases hone : a.toNat < 0x80
  · exact passed [a] rfl (.one hone rfl)
  by_cases htwo : 0xc2 ≤ a.toNat ∧ a.toNat < 0xe0
  · rw [decodeUtf8_more (utf8Lead_two htwo)] at h
    obtain ⟨b, rest, rfl, hb⟩ := exists_of_decodeFrom h
    obtain ⟨hb, _⟩ := (accepts_tail_iff _ _).mp hb
    have hbits := withTail_eq (a.toNat - 0xc0) b
    exact passed [a, b] rfl (.two ⟨by omega, htwo.2⟩ hb rfl (by omega))
  by_cases hthree : 0xe0 ≤ a.toNat ∧ a.toNat < 0xf0
  · rw [decodeUtf8_more (utf8Lead_three hthree)] at h
    obtain ⟨b, rest, rfl, hb⟩ := exists_of_decodeFrom h
    rw [decodeFrom_next hb] at h
    obtain ⟨c, rest, rfl, hc⟩ := exists_of_decodeFrom h
    obtain ⟨hb, hsecond, _⟩ := (accepts_three_iff _ _).mp hb
    obtain ⟨hc, hsurrogate⟩ := (accepts_tail_iff _ _).mp hc
    have hbits := withTail_eq (a.toNat - 0xe0) b
    have hbits' := withTail_eq (withTail (a.toNat - 0xe0) b) c
    have hranges := And.intro hb hc
    simp only [IsTail] at hranges
    exact passed [a, b, c] rfl (.three hthree hb hc rfl (by omega) (by omega))
  by_cases hfour : 0xf0 ≤ a.toNat ∧ a.toNat < 0xf5
  · rw [decodeUtf8_more (utf8Lead_four hfour)] at h
    obtain ⟨b, rest, rfl, hb⟩ := exists_of_decodeFrom h
    rw [decodeFrom_next hb] at h
    obtain ⟨c, rest, rfl, hc⟩ := exists_of_decodeFrom h
    rw [decodeFrom_next hc] at h
    obtain ⟨d, rest, rfl, hd⟩ := exists_of_decodeFrom h
    obtain ⟨hb, hsecond, hsecond'⟩ := (accepts_four_iff a (by omega)).mp hb
    obtain ⟨hc, _⟩ := (accepts_tail_iff _ _).mp hc
    obtain ⟨hd, _⟩ := (accepts_tail_iff _ _).mp hd
    have hbits := withTail_eq (a.toNat - 0xf0) b
    have hbits' := withTail_eq (withTail (a.toNat - 0xf0) b) c
    have hbits'' := withTail_eq (withTail (withTail (a.toNat - 0xf0) b) c) d
    have hranges := And.intro hb (And.intro hc hd)
    simp only [IsTail] at hranges
    exact passed [a, b, c, d] rfl (.four hfour.1 hb hc hd rfl (by omega) (by omega))
  · rw [decodeUtf8, decodeFrom, utf8Lead_invalid (by omega)] at h
    have hending := congrArg Prod.snd h
    cases hending

/-! ## The main statement -/

/-- The encoding of a text. -/
def utf8Bytes (text : String) : List UInt8 := text.toUTF8.data.toList

theorem utf8Bytes_ofList (cs : List Char) :
    utf8Bytes (String.ofList cs) = cs.flatMap String.utf8EncodeChar :=
  List.toList_data_toByteArray

/-- **Bytes decode to a text without an error** exactly if they are its encoding. -/
theorem decodeUtf8_eq_complete_iff {bytes : List UInt8} {cs : List Char} :
    decodeUtf8 bytes = (cs, .complete) ↔ bytes = utf8Bytes (String.ofList cs) := by
  rw [utf8Bytes_ofList]
  constructor
  · -- on the length of the bytes: what follows the first form is shorter
    intro h
    induction hlength : bytes.length using Nat.strongRecOn generalizing bytes cs with
    | ind length ih =>
      cases bytes with
      | nil =>
        obtain ⟨rfl, _⟩ := Prod.mk.inj h
        rfl
      | cons a rest =>
        obtain ⟨head, c, tail, cs', hsplit, hspells, rfl, htail⟩ := exists_spells h
        rw [hsplit] at hlength ⊢
        rw [List.flatMap_cons, ← hspells.eq_utf8EncodeChar, ← ih tail.length ?_ htail rfl]
        rw [← hlength, List.length_append]
        have hne : 0 < head.length := by cases hspells <;> exact Nat.succ_pos _
        omega
  · rintro rfl
    induction cs with
    | nil => rfl
    | cons c cs ih =>
      rw [List.flatMap_cons, decodeUtf8_spells (spells_utf8EncodeChar c), ih, Char.ofNat_toNat]

end Ls8.Text
