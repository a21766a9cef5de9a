import Ls8.Proofs.Program.Loading

/-
  Writing a program as text, and loading it again.

  1. **Rows.**  A text has rows of two kinds.  A byte row is a binary numeral between blanks, a blank
     row has blanks only, and either may end with a remark.  The parts of a row are what the grammar
     allows, by their types (`Blanks`, `Numeral`, `Remark`), so there are no ill-formed rows.

  2. **A row** holds what was written into it (`significant_row`).  A remark is cut off although it
     may hold digits or further marks, since nothing before it is a mark; the numeral is what is left
     when the blanks around it are forgotten, since none of its digits is blank; and its leading
     zeros do not change the number that is read (`binaryNumber_chars`).

  3. **A text** is cut into its rows again (`significantFrom_lines_render`).  Without a line feed at
     its end an empty last row is lost, but that one holds nothing.

  Main statement: loading undoes rendering (`loadText_render`).
-/

namespace Ls8

/-! ## Numerals -/

/-- **A binary numeral of a byte:** some zeros, then its digits, eight characters at most. -/
structure Numeral where
  value : UInt8
  zeros : Nat
  fits : zeros + (Text.binaryDigits value.toNat).length ≤ 8

/-- How a numeral is written. -/
def Numeral.chars (numeral : Numeral) : List Char :=
  List.replicate numeral.zeros '0' ++ Text.binaryDigits numeral.value.toNat

theorem bitOf_digitChar {d : Nat} (hd : d < 2) : bitOf (Text.digitChar false d) = d := by
  revert d
  decide

/-- **The digits of a number write that number.** -/
theorem binaryNumber_binaryDigits (n : Nat) : binaryNumber (Text.binaryDigits n) = n := by
  induction n using Nat.strongRecOn with
  | ind n ih =>
    show binaryNumber (Text.digits false 2 n) = n
    rw [Text.digits]
    split
    · rename_i hsmall
      have hsmall : n < 2 := by omega
      have hsingle : binaryNumber [Text.digitChar false n] = bitOf (Text.digitChar false n) := by
        rw [← List.nil_append [_], binaryNumber_append_singleton]
        exact Nat.zero_add _
      rw [hsingle, bitOf_digitChar hsmall]
    · -- the last digit is the remainder, the others write the half
      have hhalf := ih (n / 2) (by omega)
      rw [binaryNumber_append_singleton, bitOf_digitChar (Nat.mod_lt n (by decide))]
      show 2 * binaryNumber (Text.binaryDigits (n / 2)) + n % 2 = n
      rw [hhalf]
      omega

/-- Leading zeros do not count. -/
theorem binaryNumber_replicate_append (zeros : Nat) (digits : List Char) :
    binaryNumber (List.replicate zeros '0' ++ digits) = binaryNumber digits := by
  induction digits using List.reverseRecOn with
  | nil =>
    induction zeros with
    | zero => rfl
    | succ k ih =>
      rw [List.append_nil] at ih ⊢
      rw [List.replicate_succ', binaryNumber_append_singleton, ih]
      rfl
  | append_singleton digits c ih =>
    rw [← List.append_assoc, binaryNumber_append_singleton, ih, binaryNumber_append_singleton]

theorem Numeral.binaryNumber_chars (numeral : Numeral) :
    binaryNumber numeral.chars = numeral.value.toNat := by
  rw [chars, binaryNumber_replicate_append, binaryNumber_binaryDigits]

theorem mem_binaryDigits {n : Nat} {c : Char} (h : c ∈ Text.binaryDigits n) : c = '0' ∨ c = '1' := by
  have hdigit {d : Nat} (hd : d < 2) : Text.digitChar false d = '0' ∨ Text.digitChar false d = '1' := by
    revert d
    decide
  induction n using Nat.strongRecOn with
  | ind n ih =>
    replace h : c ∈ Text.digits false 2 n := h
    rw [Text.digits] at h
    split at h
    · rename_i hsmall
      rw [List.mem_singleton.mp h]
      exact hdigit (by omega)
    · rcases List.mem_append.mp h with h | h
      · exact ih (n / 2) (by omega) h
      · rw [List.mem_singleton.mp h]
        exact hdigit (Nat.mod_lt n (by decide))

/-- A numeral has binary digits only. -/
theorem Numeral.mem_chars {numeral : Numeral} {c : Char} (h : c ∈ numeral.chars) :
    c = '0' ∨ c = '1' := by
  rcases List.mem_append.mp h with h | h
  · exact .inl (List.eq_of_mem_replicate h)
  · exact mem_binaryDigits h

/-- A numeral has one to eight characters. -/
theorem Numeral.length_chars (numeral : Numeral) :
    1 ≤ numeral.chars.length ∧ numeral.chars.length ≤ 8 := by
  have hpos : 1 ≤ (Text.binaryDigits numeral.value.toNat).length :=
    List.length_pos_iff.mpr (Text.digits_ne_nil false 2 numeral.value.toNat)
  have hfits := numeral.fits
  rw [chars, List.length_append, List.length_replicate]
  exact ⟨by omega, hfits⟩

/-! ## Rows -/

/-- Blanks within a line. -/
structure Blanks where
  chars : List Char
  blank : ∀ c ∈ chars, Text.isBlank c = true
  inLine : '\n' ∉ chars

/-- What stands behind the mark of a comment, if there is one. -/
structure Remark where
  text : Option (List Char)
  inLine : ∀ cs ∈ text, '\n' ∉ cs

/-- How a remark is written. -/
def Remark.chars (remark : Remark) : List Char :=
  match remark.text with
  | none => []
  | some cs => '#' :: cs

/-- **A row of a program text.** -/
inductive Row where
  /-- A row that holds nothing. -/
  | blank (gap : Blanks) (remark : Remark)
  /-- A row that holds a byte. -/
  | byte (front : Blanks) (numeral : Numeral) (back : Blanks) (remark : Remark)

namespace Row

/-- How a row is written. -/
def chars : Row → List Char
  | .blank gap remark => gap.chars ++ remark.chars
  | .byte front numeral back remark => front.chars ++ numeral.chars ++ back.chars ++ remark.chars

/-- The byte that a row holds. -/
def byte? : Row → Option UInt8
  | .blank _ _ => none
  | .byte _ numeral _ _ => some numeral.value

end Row

/-- **The bytes that were written** in rows. -/
def written (rows : List Row) : List UInt8 := rows.filterMap Row.byte?

/-- **The text of rows:** line feeds between them, and one at the end if it is closed. -/
def render (rows : List Row) (closed : Bool) : List Char :=
  List.intercalate ['\n'] (rows.map Row.chars) ++ if closed then ['\n'] else []

/-! ## What a row holds -/

theorem Blanks.notMark {blanks : Blanks} {c : Char} (h : c ∈ blanks.chars) : c ≠ '#' := by
  rintro rfl
  have hblank := blanks.blank '#' h
  exact absurd hblank (by decide)

theorem Numeral.notMark {numeral : Numeral} {c : Char} (h : c ∈ numeral.chars) : c ≠ '#' := by
  rcases mem_chars h with rfl | rfl <;> decide

/-- A remark is cut off at its mark. -/
theorem withoutComment_append_remark {cs : List Char} (h : ∀ c ∈ cs, c ≠ '#') (remark : Remark) :
    withoutComment (cs ++ remark.chars) = cs := by
  have hremark : remark.chars.takeWhile (· != '#') = [] := by
    rw [Remark.chars]
    split <;> rfl
  rw [withoutComment, List.takeWhile_append_of_pos (by simpa using h), hremark, List.append_nil]

/-- A text without blanks has none at its ends. -/
theorem dropWhile_isBlank_of_digits {cs : List Char} (h : ∀ c ∈ cs, c = '0' ∨ c = '1') :
    cs.dropWhile Text.isBlank = cs := by
  cases cs with
  | nil => rfl
  | cons c cs =>
    have hc : Text.isBlank c = false := by
      rcases h c List.mem_cons_self with rfl | rfl <;> decide
    rw [List.dropWhile_cons_of_neg (by simp [hc])]

/-- **Around a numeral** blanks are forgotten. -/
theorem lineText_byte (front : Blanks) (numeral : Numeral) (back : Blanks) (remark : Remark) :
    lineText (Row.byte front numeral back remark).chars = numeral.chars := by
  have hmark : ∀ c ∈ front.chars ++ numeral.chars ++ back.chars, c ≠ '#' := by
    intro c hc
    rcases List.mem_append.mp hc with hc | hc
    · rcases List.mem_append.mp hc with hc | hc
      · exact Blanks.notMark hc
      · exact Numeral.notMark hc
    · exact Blanks.notMark hc
  have hreverse : ∀ c ∈ numeral.chars.reverse, c = '0' ∨ c = '1' :=
    fun c hc => Numeral.mem_chars (List.mem_reverse.mp hc)
  rw [lineText, Row.chars, withoutComment_append_remark hmark]
  show Text.trimBy _ _ = _
  rw [Text.trimBy_surround front.blank back.blank]
  exact Text.trimBy_eq_self (dropWhile_isBlank_of_digits fun c hc => Numeral.mem_chars hc)
    (dropWhile_isBlank_of_digits hreverse)

theorem byteLine_byte (front : Blanks) (numeral : Numeral) (back : Blanks) (remark : Remark) :
    ByteLine (Row.byte front numeral back remark).chars := by
  rw [ByteLine, lineText_byte]
  exact ⟨numeral.length_chars, fun c hc => Numeral.mem_chars hc⟩

theorem lineByte_byte (front : Blanks) (numeral : Numeral) (back : Blanks) (remark : Remark) :
    lineByte (Row.byte front numeral back remark).chars = numeral.value := by
  rw [lineByte, lineText_byte, Numeral.binaryNumber_chars]
  exact UInt8.ofNat_toNat

theorem blankLine_blank (gap : Blanks) (remark : Remark) :
    BlankLine (Row.blank gap remark).chars := by
  rw [BlankLine, Row.chars, withoutComment_append_remark fun c hc => Blanks.notMark hc]
  exact gap.blank

/-- **A row holds what was written into it.** -/
theorem significant_row (row : Row) (n : Nat) :
    bytesOf (significantFrom n [row.chars]) = row.byte?.toList ∧
      ∀ l ∈ significantFrom n [row.chars], ByteLine l.1 ∧ l.2 = n := by
  cases row with
  | blank gap remark =>
    rw [significantFrom_cons_of_blank (blankLine_blank gap remark)]
    exact ⟨rfl, fun l hl => absurd hl List.not_mem_nil⟩
  | byte front numeral back remark =>
    have hbyte := byteLine_byte front numeral back remark
    rw [significantFrom_cons_of_not_blank hbyte.not_blank]
    constructor
    · show [lineByte _] = [numeral.value]
      rw [lineByte_byte]
    · intro l hl
      rw [List.mem_singleton.mp hl]
      exact ⟨hbyte, rfl⟩

/-- No row has a line feed in it. -/
theorem newline_notMem_chars (row : Row) : '\n' ∉ row.chars := by
  have hremark (remark : Remark) : '\n' ∉ remark.chars := by
    rw [Remark.chars]
    split
    · exact List.not_mem_nil
    · rename_i cs hcs
      intro hmem
      rcases List.mem_cons.mp hmem with hmark | hmem
      · exact absurd hmark (by decide)
      · exact remark.inLine cs hcs hmem
  have hnumeral (numeral : Numeral) : '\n' ∉ numeral.chars := by
    intro hmem
    rcases Numeral.mem_chars hmem with h | h <;> exact absurd h (by decide)
  cases row with
  | blank gap remark => simp [Row.chars, gap.inLine, hremark]
  | byte front numeral back remark =>
    simp [Row.chars, front.inLine, back.inLine, hremark, hnumeral]

/-! ## What a text holds -/

theorem significantFrom_append (n : Nat) (ls ls' : List (List Char)) :
    significantFrom n (ls ++ ls') = significantFrom n ls ++ significantFrom (n + ls.length) ls' := by
  rw [significantFrom, List.zipIdx_append, List.filter_append]
  rfl

/-- **Rows hold what was written into them.** -/
theorem bytesOf_rows (rows : List Row) (n : Nat) :
    bytesOf (significantFrom n (rows.map Row.chars)) = written rows := by
  induction rows generalizing n with
  | nil => rfl
  | cons row rows ih =>
    have hsplit : (row :: rows).map Row.chars = [row.chars] ++ rows.map Row.chars := rfl
    have hwritten : written (row :: rows) = row.byte?.toList ++ written rows := by
      rw [written, List.filterMap_cons]
      cases row.byte? <;> rfl
    rw [hsplit, significantFrom_append, bytesOf, List.map_append, hwritten]
    exact congrArg₂ (· ++ ·) (significant_row row n).1 (ih _)

/-- Rows are well-formed lines. -/
theorem byteLine_of_rows {rows : List Row} {n : Nat} {l : NumberedLine}
    (h : l ∈ significantFrom n (rows.map Row.chars)) : ByteLine l.1 := by
  induction rows generalizing n with
  | nil => exact absurd h List.not_mem_nil
  | cons row rows ih =>
    have hsplit : (row :: rows).map Row.chars = [row.chars] ++ rows.map Row.chars := rfl
    rw [hsplit, significantFrom_append] at h
    rcases List.mem_append.mp h with h | h
    · exact ((significant_row row n).2 l h).1
    · exact ih h

/-- **A byte has the number of its row.** -/
theorem number_of_row {before after : List Row} {row : Row} {n : Nat} (hrow : row.byte?.isSome) :
    (numbersOf (significantFrom n ((before ++ row :: after).map Row.chars)))[
      (written before).length]? = some ((n + before.length : Nat) : Int) := by
  have hsplit : (before ++ row :: after).map Row.chars =
      before.map Row.chars ++ ([row.chars] ++ after.map Row.chars) := by
    rw [List.map_append, List.map_cons]
    rfl
  have hplace : (written before).length =
      (numbersOf (significantFrom n (before.map Row.chars))).length := by
    rw [← bytesOf_rows before n, length_bytesOf, length_numbersOf]
  obtain ⟨hbytes, hline⟩ := significant_row row (n + (before.map Row.chars).length)
  -- the row holds a byte, so it is one of the significant lines
  obtain ⟨b, hb⟩ := Option.isSome_iff_exists.mp hrow
  rw [hb] at hbytes
  obtain ⟨l, hl, _⟩ := List.map_eq_singleton_iff.mp hbytes
  have hnumber : l.2 = n + (before.map Row.chars).length :=
    (hline l (by rw [hl]; exact List.mem_cons_self)).2
  rw [hsplit, significantFrom_append, significantFrom_append, hl, hplace, numbersOf,
    List.map_append, numbersOf, List.getElem?_append_right (Nat.le_refl _), Nat.sub_self]
  show some (l.2 : Int) = _
  rw [hnumber, List.length_map]

theorem blankLine_nil : BlankLine [] := fun _ hc => absurd hc List.not_mem_nil

/-- A line by itself is read back, unless it is empty. -/
theorem significantFrom_lines_of_inLine {line : List Char} (h : '\n' ∉ line) (n : Nat) :
    significantFrom n (Text.lines line) = significantFrom n [line] := by
  have hlines : line ≠ [] → Text.lines line = [line] := by
    clear n
    intro hne
    induction line with
    | nil => exact absurd rfl hne
    | cons c rest ih =>
      rw [List.mem_cons, not_or] at h
      rw [Text.lines, if_neg (Ne.symm h.1)]
      cases rest with
      | nil => rfl
      | cons d rest => rw [ih h.2 (List.cons_ne_nil d rest)]
  by_cases hnil : line = []
  · -- what is lost is blank
    subst hnil
    rw [significantFrom_cons_of_blank blankLine_nil]
    rfl
  · rw [hlines hnil]

/-- Lines with line feeds between them are read back, but for an empty last one. -/
theorem significantFrom_lines_intercalate {ls : List (List Char)} (h : ∀ line ∈ ls, '\n' ∉ line)
    (n : Nat) :
    significantFrom n (Text.lines (List.intercalate ['\n'] ls)) = significantFrom n ls := by
  induction ls generalizing n with
  | nil => rfl
  | cons line ls ih =>
    have hline := h line List.mem_cons_self
    cases ls with
    | nil =>
      rw [List.intercalate_singleton]
      exact significantFrom_lines_of_inLine hline n
    | cons next ls =>
      have hrest := ih fun l hl => h l (List.mem_cons_of_mem line hl)
      rw [List.intercalate_cons_cons, List.append_assoc, List.singleton_append,
        Text.lines_append hline, ← List.singleton_append, significantFrom_append, hrest,
        ← significantFrom_append]
      rfl

/-- A line feed at the end closes the last line. -/
theorem intercalate_append_newline {ls : List (List Char)} (h : ls ≠ []) :
    List.intercalate ['\n'] ls ++ ['\n'] = Text.closeLines ls := by
  induction ls with
  | nil => exact absurd rfl h
  | cons line ls ih =>
    cases ls with
    | nil =>
      rw [List.intercalate_singleton]
      exact (List.append_nil _).symm
    | cons next ls =>
      rw [List.intercalate_cons_cons, List.append_assoc, ih (List.cons_ne_nil next ls)]
      rfl

/-- **A text is cut into its rows again.** -/
theorem significantFrom_lines_render (rows : List Row) (closed : Bool) (n : Nat) :
    significantFrom n (Text.lines (render rows closed)) =
      significantFrom n (rows.map Row.chars) := by
  have hinLine : ∀ line ∈ rows.map Row.chars, '\n' ∉ line := by
    intro line hline
    obtain ⟨row, _, rfl⟩ := List.mem_map.mp hline
    exact newline_notMem_chars row
  cases closed with
  | false =>
    rw [render, if_neg (by decide), List.append_nil]
    exact significantFrom_lines_intercalate hinLine n
  | true =>
    rw [render, if_pos rfl]
    by_cases hnil : rows.map Row.chars = []
    · -- no rows and a line feed are one empty line
      rw [hnil]
      exact significantFrom_cons_of_blank blankLine_nil
    · rw [intercalate_append_newline hnil, Text.lines_closeLines hinLine]

/-! ## The main statement -/

/-- **Loading undoes rendering.**  Rows that were written as text are loaded into a block of 256
    bytes whenever their bytes fit behind the start: the image has the bytes that were written, each
    with the number of its row, it ends where the last of them lies, and they stand in memory from the
    start on. -/
theorem loadText_render (rows : List Row) (closed : Bool) {start : Int} (name : String) {m : Memory}
    (hfull : m.Full) (hstart : 0 ≤ start ∧ start ≤ 255)
    (hfits : (written rows).length ≤ 256 - start) :
    let loading := loadText (String.ofList (render rows closed)) start name m
    ∃ image, loading.result = .ok image ∧ image.bytes = written rows ∧
      image.lines.length = (written rows).length ∧
      (∀ before row after, rows = before ++ row :: after → row.byte?.isSome →
        image.lines[(written before).length]? = some ((before.length : Int) + 1)) ∧
      image.last = start + (written rows).length - 1 ∧
      Poked m start (written rows) loading.memory := by
  intro loading
  have hnext : ProgramImage.next { name, start } = start := Int.add_zero start
  have hloaded : Loaded m { name, start } (significantFrom 1 (rows.map Row.chars)) loading := by
    have h := loaded_loadText (String.ofList (render rows closed)) hstart name hfull
    rwa [String.toList_ofList, significant, significantFrom_lines_render] at h
  have hbytes := bytesOf_rows rows 1
  have hlength : (significantFrom 1 (rows.map Row.chars)).length = (written rows).length := by
    rw [← hbytes, length_bytesOf]
  revert hloaded
  generalize loading = r
  intro hloaded
  cases hloaded with
  | complete hform _ hmemory =>
    rw [hnext, hbytes] at hmemory
    refine ⟨_, rfl, ?_, ?_, ?_, ?_, hmemory⟩
    · exact hbytes
    · show (numbersOf _).length = _
      rw [length_numbersOf, hlength]
    · rintro before row after rfl hrow
      show (numbersOf _)[_]? = _
      rw [number_of_row hrow]
      congr 1
      omega
    · show start + (bytesOf (significantFrom 1 (rows.map Row.chars))).length - 1 = _
      rw [hbytes]
  | @stopped m' before after l e hsplit hform hfits' hrefused _ =>
    -- every row is well-formed and there is room for its byte
    exfalso
    rw [hnext] at hfits' hrefused
    have hline : ByteLine l.1 := by
      have hmem : l ∈ significantFrom 1 (rows.map Row.chars) := by
        rw [hsplit]
        exact List.mem_append_right before List.mem_cons_self
      exact byteLine_of_rows hmem
    rw [hsplit, List.length_append, List.length_cons] at hlength
    cases hrefused with
    | malformed h => exact h hline
    | tooLong _ ha => omega

/-- Four rows, the last of them empty: a remark with a digit and a mark in it, and two bytes that
    fill the last addresses, one of them with leading zeros between blanks. -/
theorem loadText_render_of_four_rows :
    ∃ rows, render rows false = "#1#\n \t00101 \t#1#\n0\n".toList ∧ rows.length = 4 ∧
      ∃ image, (loadText (String.ofList (render rows false)) 254 "p" (.holding [])).result =
          .ok image ∧
        image.bytes = [5, 0] ∧ image.lines[1]? = some 3 := by
  let space : Blanks := ⟨[' ', '\t'], List.all_eq_true.mp rfl, by decide⟩
  let none' : Blanks := ⟨[], List.all_eq_true.mp rfl, by decide⟩
  let silent : Remark := ⟨none, by decide⟩
  let remark : Remark := ⟨some ['1', '#'], by decide⟩
  let rows : List Row := [.blank none' remark,
    .byte space ⟨5, 2, by simp [Text.digits]⟩ space remark,
    .byte none' ⟨0, 0, by simp [Text.digits]⟩ none' silent, .blank none' silent]
  refine ⟨rows, ?_, rfl, ?_⟩
  · simp [render, rows, Row.chars, Numeral.chars, Remark.chars, Text.digits, Text.digitChar, space,
      none', silent, remark, List.intercalate, List.replicate]
  · have hstart : (0 : Int) ≤ 254 ∧ (254 : Int) ≤ 255 := by decide
    obtain ⟨image, hresult, hbytes, _, hlines, _⟩ :=
      loadText_render rows false "p" (Memory.full_holding []) hstart (by decide)
    exact ⟨image, hresult, hbytes, hlines [rows[0], rows[1]] rows[2] [rows[3]] rfl rfl⟩

end Ls8
