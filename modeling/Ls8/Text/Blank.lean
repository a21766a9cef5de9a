/-
  Blank characters and trimming.

  Blank are the spaces and line separators of the Unicode standard, the ASCII layout controls
  (U+0009 to U+000D), the ASCII information separators (U+001C to U+001F) and the next-line
  control U+0085.  Invisible characters of width zero, such as U+200B or U+FEFF, are not blank.

  Main statements: trimming forgets blanks around a text (`trimBy_surround`), keeps a text with no
  blank at its ends (`trimBy_eq_self`), and leaves nothing exactly of a text of blanks
  (`trimBy_eq_nil_iff`).
-/

namespace Ls8.Text

/-- Whether a character is blank. -/
def isBlank (c : Char) : Bool :=
  let n := c.toNat
  (0x09 ≤ n && n ≤ 0x0d) || (0x1c ≤ n && n ≤ 0x20) || n == 0x85 || n == 0xa0 || n == 0x1680 ||
  (0x2000 ≤ n && n ≤ 0x200a) || n == 0x2028 || n == 0x2029 || n == 0x202f || n == 0x205f ||
  n == 0x3000

/-! ## Trimming -/

/-- A text without the blanks before its first and after its last other character. -/
def trimBy (blank : Char → Bool) (cs : List Char) : List Char :=
  ((cs.dropWhile blank).reverse.dropWhile blank).reverse

/-- Trimming of blank characters. -/
abbrev trim (cs : List Char) : List Char := trimBy isBlank cs

variable {blank : Char → Bool}

/-- Dropping from the left passes over blanks in front. -/
theorem dropWhile_append_of_all {xs : List Char} (h : ∀ c ∈ xs, blank c = true) (ys : List Char) :
    (xs ++ ys).dropWhile blank = ys.dropWhile blank := by
  induction xs with
  | nil => rfl
  | cons x xs ih =>
    rw [List.cons_append, List.dropWhile_cons_of_pos (h x List.mem_cons_self)]
    exact ih fun c hc => h c (List.mem_cons_of_mem _ hc)

/-- Dropping from the left leaves nothing exactly of a text of blanks. -/
theorem dropWhile_eq_nil_iff {cs : List Char} :
    cs.dropWhile blank = [] ↔ ∀ c ∈ cs, blank c = true := by
  induction cs with
  | nil => simp
  | cons c cs ih => cases hc : blank c <;> simp [hc, ih]

/-- What dropping from the left leaves does not start with a blank. -/
theorem dropWhile_dropWhile (cs : List Char) :
    (cs.dropWhile blank).dropWhile blank = cs.dropWhile blank := by
  induction cs with
  | nil => rfl
  | cons c cs ih => cases hc : blank c <;> simp [hc, ih]

/-- **Trimming leaves nothing exactly of a text of blanks.** -/
theorem trimBy_eq_nil_iff {cs : List Char} : trimBy blank cs = [] ↔ ∀ c ∈ cs, blank c = true := by
  rw [trimBy, List.reverse_eq_nil_iff, dropWhile_eq_nil_iff]
  constructor
  · intro h
    -- what is left after dropping from the left is all blank, and starts with no blank
    have hnil : cs.dropWhile blank = [] := by
      rw [← dropWhile_dropWhile, dropWhile_eq_nil_iff]
      exact fun c hc => h c (List.mem_reverse.mpr hc)
    exact dropWhile_eq_nil_iff.mp hnil
  · intro h
    rw [dropWhile_eq_nil_iff.mpr h]
    intro c hc
    simp at hc

/-- A text that starts and ends with other characters is not changed. -/
theorem trimBy_eq_self {cs : List Char} (hfirst : cs.dropWhile blank = cs)
    (hlast : cs.reverse.dropWhile blank = cs.reverse) : trimBy blank cs = cs := by
  rw [trimBy, hfirst, hlast, List.reverse_reverse]

/-- **Blanks around a text are forgotten.** -/
theorem trimBy_surround {front back : List Char} (hfront : ∀ c ∈ front, blank c = true)
    (hback : ∀ c ∈ back, blank c = true) (cs : List Char) :
    trimBy blank (front ++ cs ++ back) = trimBy blank cs := by
  rw [trimBy, trimBy, List.append_assoc, dropWhile_append_of_all hfront]
  by_cases hcs : ∀ c ∈ cs, blank c = true
  · rw [dropWhile_append_of_all hcs, dropWhile_eq_nil_iff.mpr hcs, dropWhile_eq_nil_iff.mpr hback]
  · -- some character is left in front of `back`, so the left end is that of `cs`
    have hsplit : (cs ++ back).dropWhile blank = cs.dropWhile blank ++ back := by
      clear hfront
      induction cs with
      | nil => exact absurd (fun c hc => absurd hc List.not_mem_nil) hcs
      | cons c cs ih =>
        cases hc : blank c
        · simp [hc]
        · simp only [List.cons_append, List.dropWhile_cons, hc, if_true]
          refine ih fun hall => hcs fun d hd => ?_
          rcases List.mem_cons.mp hd with rfl | hd
          · exact hc
          · exact hall d hd
    rw [hsplit, List.reverse_append, dropWhile_append_of_all]
    exact fun c hc => hback c (List.mem_reverse.mp hc)

end Ls8.Text
