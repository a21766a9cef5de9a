/-
  Lines of a text.

  A line ends after a line feed; what follows the last line feed is a line too unless it is empty.
  A text file may also end its lines with a carriage return, alone or before a line feed; unifying
  the line ends turns each of them into one line feed.

  Main statement: lines that are written one after the other, each closed by a line feed, are read
  back (`lines_closeLines`).
-/

namespace Ls8.Text

/-- The lines of a text, without their line feeds. -/
def lines : List Char → List (List Char)
  | [] => []
  | c :: rest =>
    if c = '\n' then [] :: lines rest
    else
      match lines rest with
      | [] => [[c]]
      | line :: more => (c :: line) :: more

/-- The lines of a text that a line feed ends. -/
def closedLines (cs : List Char) : List (List Char) :=
  if cs.getLast? = some '\n' then lines cs else (lines cs).dropLast

/-- Every line end of a text file as one line feed. -/
def unifyLineEnds : List Char → List Char
  | [] => []
  | '\r' :: '\n' :: rest => '\n' :: unifyLineEnds rest
  | '\r' :: rest => '\n' :: unifyLineEnds rest
  | c :: rest => c :: unifyLineEnds rest

/-- Lines, each with its line feed. -/
def closeLines (ls : List (List Char)) : List Char := ls.flatMap fun line => line ++ ['\n']

@[simp] theorem lines_cons_newline (cs : List Char) : lines ('\n' :: cs) = [] :: lines cs := by
  rw [lines, if_pos rfl]

/-- A line in front of a text is its first line. -/
theorem lines_append {line : List Char} (h : '\n' ∉ line) (cs : List Char) :
    lines (line ++ '\n' :: cs) = line :: lines cs := by
  induction line with
  | nil => simp
  | cons c line ih =>
    rw [List.mem_cons, not_or] at h
    rw [List.cons_append, lines, if_neg (fun he => h.1 he.symm), ih h.2]

/-- **Closed lines are read back.** -/
theorem lines_closeLines {ls : List (List Char)} (h : ∀ line ∈ ls, '\n' ∉ line) :
    lines (closeLines ls) = ls := by
  induction ls with
  | nil => rfl
  | cons line ls ih =>
    rw [closeLines, List.flatMap_cons, List.append_assoc, List.singleton_append,
      lines_append (h line List.mem_cons_self)]
    congr 1
    exact ih fun l hl => h l (List.mem_cons_of_mem _ hl)

end Ls8.Text
