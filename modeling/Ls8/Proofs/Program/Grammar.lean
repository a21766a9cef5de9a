import Ls8.Program.Source
import Mathlib.Data.List.Induction
import Mathlib.Data.Nat.Digits.Defs

/-
  The grammar of program text.

  A line is looked at up to its first `#` only.  If that part is blank, the line holds nothing; if
  without the blanks around it that part is one to eight binary digits, the line holds a byte
  (`ByteLine`).  There is no third kind of line that loads.

  The lines that hold something are the significant ones.  They keep the numbers that they have
  among all lines, so of the skipped lines nothing is left but gaps in the numbers
  (`pairwise_significant`).

  Main statement: what a line is taken for is decided by the grammar (`ofChars_of_blank`,
  `ofChars_of_byteLine`, `ofChars_of_malformed`).
-/

namespace Ls8

/-! ## Binary numbers -/

/-- The value of a binary digit. -/
def bitOf (c : Char) : Nat := if c = '1' then 1 else 0

/-- **The number that binary digits write,** the last digit having the weight one. -/
def binaryNumber (digits : List Char) : Nat := Nat.ofDigits 2 (digits.reverse.map bitOf)

theorem binaryNumber_append_singleton (digits : List Char) (c : Char) :
    binaryNumber (digits ++ [c]) = 2 * binaryNumber digits + bitOf c := by
  rw [binaryNumber, List.reverse_append, List.reverse_singleton, List.singleton_append,
    List.map_cons, Nat.ofDigits_cons, binaryNumber]
  omega

/-- Reading digits from the left computes their number. -/
theorem binaryValue_eq (digits : List Char) : binaryValue digits = binaryNumber digits := by
  -- from the left means: the last digit comes last
  induction digits using List.reverseRecOn with
  | nil => rfl
  | append_singleton digits c ih =>
    have hstep : binaryValue (digits ++ [c]) = binaryValue digits * 2 + bitOf c := by
      rw [binaryValue, List.foldl_append]
      rfl
    rw [hstep, ih, binaryNumber_append_singleton]
    omega

/-! ## Kinds of lines -/

/-- A line that holds nothing: the part before its comment is blank. -/
def BlankLine (line : List Char) : Prop := ∀ c ∈ withoutComment line, Text.isBlank c = true

-- decided along the line: as there are finitely many characters, all of them could be gone through
instance (line : List Char) : Decidable (BlankLine line) :=
  List.decidableBAll _ (withoutComment line)

/-- The text of a line: the part before its comment, without the blanks around it. -/
def lineText (line : List Char) : List Char := Text.trim (withoutComment line)

/-- **A line that holds a byte:** its text is one to eight binary digits. -/
def ByteLine (line : List Char) : Prop :=
  (1 ≤ (lineText line).length ∧ (lineText line).length ≤ 8) ∧ ∀ c ∈ lineText line, c = '0' ∨ c = '1'

instance (line : List Char) : Decidable (ByteLine line) :=
  have := List.decidableBAll (fun c => c = '0' ∨ c = '1') (lineText line)
  instDecidableAnd

/-- The byte of such a line. -/
def lineByte (line : List Char) : UInt8 := UInt8.ofNat (binaryNumber (lineText line))

variable {line : List Char}

theorem lineText_eq_nil_iff : lineText line = [] ↔ BlankLine line := Text.trimBy_eq_nil_iff

/-- No line is of both kinds. -/
theorem ByteLine.not_blank (h : ByteLine line) : ¬ BlankLine line := by
  intro hblank
  have hlength := h.1.1
  rw [lineText_eq_nil_iff.mpr hblank] at hlength
  exact absurd hlength (by decide)

theorem ofChars_eq (line : List Char) : SourceLine.ofChars line =
    if (lineText line).isEmpty then .nothing
    else if (lineText line).length ≤ 8 && (lineText line).all isBinaryDigit then
      .byte (UInt8.ofNat (binaryValue (lineText line)))
    else .junk (lineText line) := rfl

theorem ofChars_of_blank (h : BlankLine line) : SourceLine.ofChars line = .nothing := by
  rw [ofChars_eq, if_pos (List.isEmpty_iff.mpr (lineText_eq_nil_iff.mpr h))]

/-- The digits of a line that is not blank are tested character by character. -/
theorem isByteText_iff (hne : ¬ BlankLine line) :
    ((lineText line).length ≤ 8 && (lineText line).all isBinaryDigit) = true ↔ ByteLine line := by
  have hpos : 1 ≤ (lineText line).length := by
    refine List.length_pos_iff.mpr fun hnil => hne ?_
    exact lineText_eq_nil_iff.mp hnil
  simp only [Bool.and_eq_true, decide_eq_true_eq, List.all_eq_true, isBinaryDigit, Bool.or_eq_true,
    beq_iff_eq, ByteLine]
  exact ⟨fun ⟨hle, hall⟩ => ⟨⟨hpos, hle⟩, hall⟩, fun ⟨⟨_, hle⟩, hall⟩ => ⟨hle, hall⟩⟩

theorem ofChars_of_byteLine (h : ByteLine line) :
    SourceLine.ofChars line = .byte (lineByte line) := by
  have hne : ¬ lineText line = [] := fun hnil => h.not_blank (lineText_eq_nil_iff.mp hnil)
  rw [ofChars_eq, if_neg (by rwa [List.isEmpty_iff]), if_pos ((isByteText_iff h.not_blank).mpr h),
    lineByte, binaryValue_eq]

theorem ofChars_of_malformed (hblank : ¬ BlankLine line) (hbyte : ¬ ByteLine line) :
    SourceLine.ofChars line = .junk (lineText line) := by
  have hne : ¬ lineText line = [] := fun hnil => hblank (lineText_eq_nil_iff.mp hnil)
  rw [ofChars_eq, if_neg (by rwa [List.isEmpty_iff]), if_neg (mt (isByteText_iff hblank).mp hbyte)]

/-! ## Significant lines -/

/-- A line with its number. -/
abbrev NumberedLine := List Char × Nat

/-- The lines that hold something, with their numbers; the first line has the number `n`. -/
def significantFrom (n : Nat) (lines : List (List Char)) : List NumberedLine :=
  (lines.zipIdx n).filter fun l => ¬ BlankLine l.1

/-- **The significant lines of a text,** whose lines are numbered from one. -/
def significant (lines : List (List Char)) : List NumberedLine := significantFrom 1 lines

/-- The bytes that lines hold. -/
def bytesOf (ls : List NumberedLine) : List UInt8 := ls.map fun l => lineByte l.1

/-- The numbers of lines. -/
def numbersOf (ls : List NumberedLine) : List Int := ls.map fun l => (l.2 : Int)

variable {n : Nat} {lines : List (List Char)}

@[simp] theorem length_bytesOf (ls : List NumberedLine) : (bytesOf ls).length = ls.length :=
  List.length_map _

@[simp] theorem length_numbersOf (ls : List NumberedLine) : (numbersOf ls).length = ls.length :=
  List.length_map _

theorem significantFrom_cons_of_blank (h : BlankLine line) :
    significantFrom n (line :: lines) = significantFrom (n + 1) lines := by
  rw [significantFrom, List.zipIdx_cons, List.filter_cons_of_neg (by simpa using h)]
  rfl

theorem significantFrom_cons_of_not_blank (h : ¬ BlankLine line) :
    significantFrom n (line :: lines) = (line, n) :: significantFrom (n + 1) lines := by
  rw [significantFrom, List.zipIdx_cons, List.filter_cons_of_pos (by simpa using h)]
  rfl

/-- **The numbers of significant lines** are strictly increasing. -/
theorem pairwise_significant (lines : List (List Char)) :
    (numbersOf (significant lines)).Pairwise (· < ·) := by
  have hall : (lines.zipIdx 1).Pairwise fun l l' => l.2 < l'.2 := by
    have hnumbers : ((lines.zipIdx 1).map Prod.snd).Pairwise (· < ·) := by
      rw [List.zipIdx_map_snd]
      exact List.pairwise_lt_range'
    exact List.pairwise_map.mp hnumbers
  have hsignificant : (significant lines).Pairwise fun l l' => l.2 < l'.2 :=
    hall.sublist List.filter_sublist
  exact List.pairwise_map.mpr (hsignificant.imp fun h => Int.ofNat_lt.mpr h)

end Ls8
