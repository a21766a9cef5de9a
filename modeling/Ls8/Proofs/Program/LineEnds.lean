import Ls8.Proofs.FullMemory
import Ls8.Proofs.Program.Encoding
import Ls8.Proofs.Program.Grammar

/-
  Program files and program texts.

  A text is cut into lines at its line feeds, a file at all of the usual line ends.  The two agree on a
  text whose carriage returns all stand before line feeds (`PairedReturns`).

  1. **Cutting** (`lines_unifyLineEnds`).  The lines of the file are those of the text, without the
     carriage returns at their ends.  The numbers of the lines are the same, with or without a line end
     behind the last one.

  2. **Reading** (`ofChars_withoutOpenReturn`).  A carriage return at the end of a line is blank, or it
     belongs to the comment.  So it does not show in what the line holds, and not in the text of a
     malformed line either, which is quoted without the blanks around it.

  Main statement: the two ways to load agree, and the kind of the line ends does not matter
  (`loading_ways_agree`).
-/

namespace Ls8

/-! ## Line ends -/

namespace Text

/-- **Every carriage return stands right before a line feed.** -/
def PairedReturns (cs : List Char) : Prop :=
  ∀ i < cs.length, cs[i]? = some '\r' → cs[i + 1]? = some '\n'

instance (cs : List Char) : Decidable (PairedReturns cs) :=
  inferInstanceAs (Decidable (∀ i < cs.length, cs[i]? = some '\r' → cs[i + 1]? = some '\n'))

/-- A text with a carriage return before each line feed. -/
def returnFeeds : List Char → List Char
  | [] => []
  | c :: rest => if c = '\n' then '\r' :: '\n' :: returnFeeds rest else c :: returnFeeds rest

variable {c : Char} {cs : List Char}

theorem pairedReturns_cons_iff :
    PairedReturns (c :: cs) ↔ (c = '\r' → cs.head? = some '\n') ∧ PairedReturns cs := by
  rw [List.head?_eq_getElem?]
  constructor
  · intro h
    refine ⟨?_, fun i hi => ?_⟩
    · rintro rfl
      exact h 0 (Nat.succ_pos _) rfl
    · exact h (i + 1) (Nat.succ_lt_succ hi)
  · rintro ⟨hfirst, hrest⟩ (_ | i) hi
    · intro hc
      exact hfirst (Option.some.inj hc)
    · exact hrest i (Nat.lt_of_succ_lt_succ hi)

theorem pairedReturns_of_not_mem (h : '\r' ∉ cs) : PairedReturns cs :=
  fun _ _ hget => absurd (List.mem_of_getElem? hget) h

theorem unifyLineEnds_cons (hc : c ≠ '\r') (cs : List Char) :
    unifyLineEnds (c :: cs) = c :: unifyLineEnds cs :=
  unifyLineEnds.eq_4 c cs (fun _ h => absurd h hc) hc

/-- With unified line ends there are no carriage returns. -/
theorem not_mem_unifyLineEnds (cs : List Char) : '\r' ∉ unifyLineEnds cs := by
  induction cs using unifyLineEnds.induct with
  | case1 => exact List.not_mem_nil
  | case2 rest ih => simpa [unifyLineEnds] using ih
  | case3 rest hrest ih => simpa [unifyLineEnds] using ih
  | case4 c rest _ hc ih =>
    rw [unifyLineEnds_cons hc, List.mem_cons, not_or]
    exact ⟨fun h => hc h.symm, ih⟩

/-- **Unifying undoes** putting carriage returns before line feeds, and does nothing else. -/
theorem unifyLineEnds_returnFeeds (h : '\r' ∉ cs) :
    unifyLineEnds (returnFeeds cs) = cs ∧ unifyLineEnds cs = cs := by
  induction cs with
  | nil => exact ⟨rfl, rfl⟩
  | cons c cs ih =>
    rw [List.mem_cons, not_or] at h
    obtain ⟨hreturns, hnone⟩ := ih h.2
    have hc : c ≠ '\r' := fun hc => h.1 hc.symm
    rw [unifyLineEnds_cons hc, hnone, returnFeeds]
    refine ⟨?_, rfl⟩
    split
    · rename_i hfeed
      rw [hfeed, unifyLineEnds, hreturns]
    · rw [unifyLineEnds_cons hc, hreturns]

/-- What stands before line feeds only is paired. -/
theorem pairedReturns_returnFeeds (h : '\r' ∉ cs) : PairedReturns (returnFeeds cs) := by
  induction cs with
  | nil => exact pairedReturns_of_not_mem List.not_mem_nil
  | cons c cs ih =>
    rw [List.mem_cons, not_or] at h
    have hrest := ih h.2
    rw [returnFeeds]
    split
    · refine pairedReturns_cons_iff.mpr ⟨fun _ => rfl, ?_⟩
      exact pairedReturns_cons_iff.mpr ⟨nofun, hrest⟩
    · exact pairedReturns_cons_iff.mpr ⟨fun hc => absurd hc.symm h.1, hrest⟩

end Text

/-! ## Lines -/

section Lines

open Text

theorem withoutOpenReturn_cons {c : Char} (hc : c ≠ '\r') (line : List Char) :
    withoutOpenReturn (c :: line) = c :: withoutOpenReturn line := by
  cases line with
  | nil =>
    rw [withoutOpenReturn, List.getLast?_singleton, if_neg (by simpa using hc)]
    rfl
  | cons d line =>
    rw [withoutOpenReturn, withoutOpenReturn, List.getLast?_cons_cons]
    split <;> rfl

/-- **The lines of a file** are those of the text, without the carriage returns at their ends. -/
theorem lines_unifyLineEnds {cs : List Char} (h : PairedReturns cs) :
    lines (unifyLineEnds cs) = (lines cs).map withoutOpenReturn := by
  induction cs using unifyLineEnds.induct with
  | case1 => rfl
  | case2 rest ih =>
    obtain ⟨_, h⟩ := pairedReturns_cons_iff.mp h
    obtain ⟨_, h⟩ := pairedReturns_cons_iff.mp h
    have hinLine : '\n' ∉ ['\r'] := by decide
    have hreturn : lines ('\r' :: '\n' :: rest) = ['\r'] :: lines rest := lines_append hinLine rest
    rw [unifyLineEnds, lines_cons_newline, ih h, hreturn, List.map_cons]
    rfl
  | case3 rest hrest ih =>
    -- a carriage return alone is not paired
    obtain ⟨hnext, _⟩ := pairedReturns_cons_iff.mp h
    obtain ⟨rest', rfl⟩ := List.head?_eq_some_iff.mp (hnext rfl)
    exact absurd rfl (hrest rest')
  | case4 c rest _ hc ih =>
    obtain ⟨_, h⟩ := pairedReturns_cons_iff.mp h
    rw [unifyLineEnds_cons hc, lines, lines, ih h]
    split
    · rfl
    · cases lines rest with
      | nil =>
        show [[c]] = [withoutOpenReturn [c]]
        rw [withoutOpenReturn_cons hc]
        rfl
      | cons line more =>
        show (c :: withoutOpenReturn line) :: more.map _ = withoutOpenReturn (c :: line) :: _
        rw [withoutOpenReturn_cons hc]

/-- A carriage return alone ends a line of a file, and no line of a text. -/
example : lines (unifyLineEnds "1\r1".toList) = [['1'], ['1']] ∧
    lines "1\r1".toList = [['1', '\r', '1']] := by decide

theorem lineText_append_return (line : List Char) : lineText (line ++ ['\r']) = lineText line := by
  have hblank : ∀ c ∈ ['\r'], isBlank c = true := by
    intro c hc
    rw [List.mem_singleton.mp hc]
    rfl
  rw [lineText, lineText, withoutComment, withoutComment, List.takeWhile_append]
  split
  · -- without a comment it is the last blank of the line
    rename_i hall
    rw [(List.takeWhile_prefix _).eq_of_length hall]
    exact trimBy_surround (fun c hc => absurd hc List.not_mem_nil) hblank line
  · rfl

/-- **A carriage return at the end** of a line does not show in what the line holds. -/
theorem ofChars_withoutOpenReturn (line : List Char) :
    SourceLine.ofChars (withoutOpenReturn line) = SourceLine.ofChars line := by
  rw [withoutOpenReturn]
  split
  · rename_i hlast
    obtain ⟨front, rfl⟩ := List.getLast?_eq_some_iff.mp hlast
    rw [List.dropLast_concat, ofChars_eq, ofChars_eq, lineText_append_return]
  · rfl

/-- Loading looks at what the lines hold, and at nothing else. -/
theorem loadLines_map_withoutOpenReturn (ls : List (List Char)) (n : Nat) (m : Memory)
    (image : ProgramImage) :
    loadLines n (ls.map withoutOpenReturn) m image = loadLines n ls m image := by
  induction ls generalizing n m image with
  | nil => rfl
  | cons line ls ih =>
    rw [List.map_cons, loadLines, loadLines, ofChars_withoutOpenReturn]
    simp only [ih]

end Lines

/-! ## The main statement -/

/-- What loading leaves, with another name for the image. -/
def Loading.named (loading : Loading) (name : String) : Loading :=
  { loading with result := loading.result.map fun image => { image with name } }

theorem loadLines_named (ls : List (List Char)) (n : Nat) (m : Memory) (image : ProgramImage)
    (name : String) :
    loadLines n ls m { image with name } = (loadLines n ls m image).named name := by
  induction ls generalizing n m image with
  | nil => rfl
  | cons line ls ih =>
    rw [loadLines, loadLines]
    cases SourceLine.ofChars line with
    | nothing => exact ih (n + 1) m image
    | junk text => rfl
    | byte b =>
      have hplace : ProgramImage.size { image with name } = image.size := rfl
      simp only [hplace]
      split
      · rfl
      · cases m.store (image.start + image.size) b with
        | ok m => exact ih (n + 1) m (image.append b.toNat n)
        | error e => rfl

/-- The name of an image is only passed on. -/
theorem loadText_named (text : String) (start : Int) (name name' : String) (m : Memory) :
    loadText text start name m = (loadText text start name' m).named name := by
  rw [loadText, loadText, loadFrom, loadFrom]
  split
  · exact loadLines_named _ 1 m { name := name', start } name
  · rfl

/-- A file that holds the encoding of a text is read as that text, with unified line ends. -/
theorem loadFile_utf8Bytes (text : String) (start : Int) (name : String) (m : Memory) :
    loadFile (Text.utf8Bytes text) start name m =
      loadFrom (Text.lines (Text.unifyLineEnds text.toList)) start name m := by
  have hdecoded : Text.decodeUtf8 (Text.utf8Bytes text) = (text.toList, .complete) := by
    rw [Text.decodeUtf8_eq_complete_iff, String.ofList_toList]
  rw [loadFile, hdecoded]

theorem loadFile_eq_loadText {text : String} (h : Text.PairedReturns text.toList) (start : Int)
    (name : String) (m : Memory) :
    loadFile (Text.utf8Bytes text) start name m = loadText text start name m := by
  rw [loadFile_utf8Bytes, loadText, loadFrom, loadFrom, lines_unifyLineEnds h,
    loadLines_map_withoutOpenReturn]

/-- **The two ways to load agree.**  Let every carriage return of a text stand right before a line feed.

    1. A file that holds the encoding of the text loads as the text does: with the same image but for
       its name or the same error, and with the same memory.
    2. Neither way notices if the lines of the text all end in line feeds, or all in carriage returns and
       line feeds. -/
theorem loading_ways_agree (text : String) (h : Text.PairedReturns text.toList) (start : Int)
    (m : Memory) :
    let feeds := String.ofList (Text.unifyLineEnds text.toList)
    let returns := String.ofList (Text.returnFeeds feeds.toList)
    (∀ name name', loadFile (Text.utf8Bytes text) start name m =
      (loadText text start name' m).named name) ∧
    ∀ converted, converted = feeds ∨ converted = returns → ∀ name,
      loadText converted start name m = loadText text start name m ∧
      loadFile (Text.utf8Bytes converted) start name m =
        loadFile (Text.utf8Bytes text) start name m := by
  intro feeds returns
  have hnone : '\r' ∉ Text.unifyLineEnds text.toList := Text.not_mem_unifyLineEnds text.toList
  obtain ⟨hreturns, hfeeds⟩ := Text.unifyLineEnds_returnFeeds hnone
  refine ⟨fun name name' => ?_, fun converted hconverted name => ?_⟩
  · rw [loadFile_eq_loadText h, loadText_named text start name name' m]
  · -- either way of writing the line ends is paired, and has the same unified line ends
    have hconversion : Text.PairedReturns converted.toList ∧
        Text.unifyLineEnds converted.toList = Text.unifyLineEnds text.toList := by
      rcases hconverted with rfl | rfl
      · rw [String.toList_ofList]
        exact ⟨Text.pairedReturns_of_not_mem hnone, hfeeds⟩
      · rw [String.toList_ofList, String.toList_ofList]
        exact ⟨Text.pairedReturns_returnFeeds hnone, hreturns⟩
    have hfile : loadFile (Text.utf8Bytes converted) start name m =
        loadFile (Text.utf8Bytes text) start name m := by
      rw [loadFile_utf8Bytes, loadFile_utf8Bytes, hconversion.2]
    refine ⟨?_, hfile⟩
    rw [← loadFile_eq_loadText hconversion.1, ← loadFile_eq_loadText h, hfile]

/-- A text with both kinds of line ends and none behind its last line, the third line of which is
    malformed. -/
theorem loading_ways_agree_on_mixed_line_ends :
    let text := "101 # fünf\r\n\n 12 \r\n1"
    let m := Memory.holding []
    (loadFile (Text.utf8Bytes text) 8 "p" m).result = .error (.malformed 3 "12") ∧
      (loadFile (Text.utf8Bytes text) 8 "p" m).memory = (loadText text 8 "" m).memory ∧
      loadText "101 # fünf\r\n\r\n 12 \r\n1" 8 "p" m = loadText text 8 "p" m := by
  intro text m
  obtain ⟨hfile, hconverted⟩ := loading_ways_agree text (by decide +kernel) 8 m
  rw [hfile "p" ""]
  refine ⟨by decide +kernel, rfl, ?_⟩
  exact (hconverted _ (.inr (by decide +kernel)) "p").1

end Ls8
