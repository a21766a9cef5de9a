/-
  Lists written with a separator between each two members.

  Writing joins the parts with the separator; reading splits at every separator.  Splitting always
  gives at least one part, so a text without separators is a list of one part, and the empty text
  is the list of one empty part.

  Main statements: parts that hold no separator are read back (`split_joined`), and a text is split at
  a separator by splitting what stands before and behind it (`split_append_cons`).
-/

namespace Ls8.Text

/-- The parts of a text between separators. -/
def split (separator : Char) : List Char → List (List Char)
  | [] => [[]]
  | c :: rest =>
    if c = separator then [] :: split separator rest
    else
      match split separator rest with
      | [] => [[c]]
      | part :: parts => (c :: part) :: parts

/-- Parts with a separator between each two. -/
def joined (separator : Char) : List (List Char) → List Char
  | [] => []
  | [part] => part
  | part :: next :: rest => part ++ separator :: joined separator (next :: rest)

variable {separator : Char}

/-- A text without separators is one part. -/
theorem split_of_not_mem {part : List Char} (h : separator ∉ part) :
    split separator part = [part] := by
  induction part with
  | nil => rfl
  | cons c part ih =>
    rw [List.mem_cons, not_or] at h
    rw [split, if_neg (Ne.symm h.1), ih h.2]

/-- There is always a part. -/
theorem split_ne_nil (cs : List Char) : split separator cs ≠ [] := by
  cases cs with
  | nil => exact List.cons_ne_nil _ _
  | cons c rest =>
    rw [split]
    split
    · exact List.cons_ne_nil _ _
    · split <;> exact List.cons_ne_nil _ _

/-- **A separator divides the parts** into those before it and those behind it. -/
theorem split_append_cons (cs ds : List Char) :
    split separator (cs ++ separator :: ds) = split separator cs ++ split separator ds := by
  induction cs with
  | nil =>
    show split separator (separator :: ds) = [] :: split separator ds
    rw [split, if_pos rfl]
  | cons c cs ih =>
    rw [List.cons_append, split, split]
    by_cases hc : c = separator
    · rw [if_pos hc, if_pos hc, ih, List.cons_append]
    · rw [if_neg hc, if_neg hc, ih]
      cases hparts : split separator cs with
      | nil => exact absurd hparts (split_ne_nil cs)
      | cons part parts => rfl

/-- The first separator ends the first part. -/
theorem split_append {part : List Char} (h : separator ∉ part) (cs : List Char) :
    split separator (part ++ separator :: cs) = part :: split separator cs := by
  rw [split_append_cons, split_of_not_mem h, List.singleton_append]

/-- **Joined parts are read back,** if there is at least one. -/
theorem split_joined {parts : List (List Char)} (hne : parts ≠ [])
    (h : ∀ part ∈ parts, separator ∉ part) : split separator (joined separator parts) = parts := by
  induction parts with
  | nil => exact absurd rfl hne
  | cons part rest ih =>
    have hpart : separator ∉ part := h part List.mem_cons_self
    cases rest with
    | nil => exact split_of_not_mem hpart
    | cons next rest =>
      rw [joined, split_append hpart]
      congr 1
      exact ih (List.cons_ne_nil _ _) fun p hp => h p (List.mem_cons_of_mem _ hp)

/-- Joined parts hold nothing but what they hold themselves, and separators. -/
theorem not_mem_joined {c : Char} (hc : c ≠ separator) {parts : List (List Char)}
    (h : ∀ part ∈ parts, c ∉ part) : c ∉ joined separator parts := by
  induction parts with
  | nil => exact List.not_mem_nil
  | cons part rest ih =>
    obtain ⟨hpart, hrest⟩ := List.forall_mem_cons.mp h
    cases rest with
    | nil => exact hpart
    | cons next rest =>
      rw [joined, List.mem_append, List.mem_cons, not_or, not_or]
      exact ⟨hpart, hc, ih hrest⟩

end Ls8.Text
