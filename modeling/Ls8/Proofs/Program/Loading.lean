import Ls8.Proofs.FullMemory
import Ls8.Proofs.Program.Grammar

/-
  What loading a program text does.

  1. **Writing** — `Poked m a bytes m'`: from `m` to `m'` the bytes were written one after the other
     from the address `a` on, and nothing else changed.

  2. **Loading** — `Loaded m image ls r`: behind the bytes of an image, either all of the significant
     lines `ls` were loaded, or those before the first one that had to be refused (`Refused`).  A line
     is refused if it is malformed, and only if it is not, if its byte would go past the last address:
     the form of a line is checked first.

  3. **The crux** (`loaded_loadLines`) — one induction on the lines, with the memory and the image as
     they are by then.  A significant line either ends the load or is put in front of what the other
     lines do from there (`Loaded.cons`); a blank one only moves the numbers on.

  Main statement: a text loads exactly if it is of the grammar and fits, and what is left in either
  case (`loadText_exactly`).
-/

namespace Ls8

/-! ## Writing bytes one after the other -/

/-- **Bytes were written** from an address on, and nothing else changed. -/
structure Poked (m : Memory) (a : Int) (bytes : List UInt8) (m' : Memory) : Prop where
  bounds : m'.start = m.start ∧ m'.length = m.length
  written : ∀ k (h : k < bytes.length), m'.get? (a + k) = some bytes[k]
  kept : ∀ x : Int, x < a ∨ a + bytes.length ≤ x → m'.get? x = m.get? x

theorem poked_nil (m : Memory) (a : Int) : Poked m a [] m where
  bounds := ⟨rfl, rfl⟩
  written := fun k h => absurd h (Nat.not_lt_zero k)
  kept := fun _ _ => rfl

/-- One byte, and the others behind it. -/
theorem Poked.cons {m m₁ m' : Memory} {a : Int} {b : UInt8} {bytes : List UInt8}
    (hstore : m.store a b = .ok m₁) (h : Poked m₁ (a + 1) bytes m') :
    Poked m a (b :: bytes) m' := by
  have hget := Memory.get?_store hstore
  obtain ⟨hstart, hlength⟩ := Memory.store_bounds hstore
  constructor
  · exact ⟨h.bounds.1.trans hstart, h.bounds.2.trans hlength⟩
  · rintro (_ | k) hk
    · -- the bytes behind it leave the first one alone
      show m'.get? (a + (0 : Nat)) = some b
      rw [h.kept _ (by omega), hget, if_pos (by omega)]
    · have hwritten := h.written k (by simpa using hk)
      rw [List.getElem_cons_succ, ← hwritten]
      congr 1
      omega
  · intro x hx
    rw [List.length_cons] at hx
    rw [h.kept x (by omega), hget, if_neg (by omega)]

/-! ## What loading leaves -/

/-- **Why a line is refused** whose byte would go to the address `a`. -/
inductive Refused (a : Int) : NumberedLine → LoadError → Prop where
  | malformed {line : List Char} {n : Nat} (h : ¬ ByteLine line) :
    Refused a (line, n) (.malformed n (String.ofList (lineText line)))
  | tooLong {line : List Char} {n : Nat} (h : ByteLine line) (ha : a = 256) :
    Refused a (line, n) (.tooLong n)

/-- The address behind the bytes of an image. -/
def ProgramImage.next (image : ProgramImage) : Int := image.start + image.size

/-- The image with the bytes and numbers of more lines. -/
def ProgramImage.extend (image : ProgramImage) (ls : List NumberedLine) : ProgramImage :=
  { image with bytes := image.bytes ++ bytesOf ls, lines := image.lines ++ numbersOf ls }

/-- **What loading significant lines leaves,** behind the bytes of an image. -/
inductive Loaded (m : Memory) (image : ProgramImage) (ls : List NumberedLine) : Loading → Prop where
  /-- All lines were loaded. -/
  | complete {m' : Memory} (hform : ∀ l ∈ ls, ByteLine l.1)
    (hfits : image.next + ls.length ≤ 256) (hmemory : Poked m image.next (bytesOf ls) m') :
    Loaded m image ls ⟨m', .ok (image.extend ls)⟩
  /-- The lines before the first one that had to be refused were loaded. -/
  | stopped {m' : Memory} {before after : List NumberedLine} {l : NumberedLine} {e : LoadError}
    (hsplit : ls = before ++ l :: after) (hform : ∀ x ∈ before, ByteLine x.1)
    (hfits : image.next + before.length ≤ 256) (hrefused : Refused (image.next + before.length) l e)
    (hmemory : Poked m image.next (bytesOf before) m') :
    Loaded m image ls ⟨m', .error e⟩

namespace Loaded

variable {m m₁ : Memory} {image : ProgramImage} {ls : List NumberedLine} {r : Loading}

/-- Loading is over at once if the first line is refused. -/
theorem refuse {l : NumberedLine} {e : LoadError} (hrefused : Refused image.next l e)
    (hfits : image.next ≤ 256) : Loaded m image (l :: ls) ⟨m, .error e⟩ := by
  have hsplit : l :: ls = [] ++ l :: ls := rfl
  refine .stopped hsplit (fun x hx => absurd hx List.not_mem_nil) ?_ ?_ (poked_nil m image.next)
  · rwa [List.length_nil, Int.natCast_zero, Int.add_zero]
  · rwa [List.length_nil, Int.natCast_zero, Int.add_zero]

/-- **One more line in front:** what the others leave behind its byte. -/
theorem cons {line : List Char} {n : Nat} (hline : ByteLine line)
    (hstore : m.store image.next (lineByte line) = .ok m₁)
    (h : Loaded m₁ (image.append (lineByte line).toNat n) ls r) :
    Loaded m image ((line, n) :: ls) r := by
  -- the image grows by the byte and the number of the line
  have hbyte : UInt8.ofInt ((lineByte line).toNat : Int) = lineByte line := by
    have hnat := toNat_ofInt ((lineByte line).toNat : Int)
    have hlt := (lineByte line).toNat_lt
    rw [← UInt8.toNat_inj]
    omega
  have hnext : (image.append (lineByte line).toNat n).next = image.next + 1 := by
    show image.start + _ = image.start + image.size + 1
    rw [ProgramImage.size_append]
    omega
  have hextend : (image.append (lineByte line).toNat n).extend ls =
      image.extend ((line, n) :: ls) := by
    simp only [ProgramImage.extend, ProgramImage.append, bytesOf, numbersOf, hbyte, List.map_cons,
      List.append_assoc, List.singleton_append]
  have hforms {xs : List NumberedLine} (hform : ∀ x ∈ xs, ByteLine x.1) :
      ∀ x ∈ (line, n) :: xs, ByteLine x.1 := by
    intro x hx
    rcases List.mem_cons.mp hx with rfl | hx
    · exact hline
    · exact hform x hx
  cases h with
  | complete hform hfits hmemory =>
    rw [hnext] at hfits hmemory
    rw [hextend]
    refine .complete (hforms hform) ?_ (.cons hstore hmemory)
    rw [List.length_cons]
    omega
  | @stopped m' before after l e hsplit hform hfits hrefused hmemory =>
    have hplace : image.next + 1 + before.length =
        image.next + (((line, n) :: before).length : Nat) := by
      rw [List.length_cons]
      omega
    rw [hnext] at hfits hrefused hmemory
    rw [hplace] at hfits hrefused
    have hsplit' : (line, n) :: ls = ((line, n) :: before) ++ l :: after := by
      rw [hsplit, List.cons_append]
    exact .stopped hsplit' (hforms hform) hfits hrefused (.cons hstore hmemory)

end Loaded

/-- **Loading lines** leaves what the significant ones among them say. -/
theorem loaded_loadLines {m : Memory} (hfull : m.Full) (lines : List (List Char)) (n : Nat)
    (image : ProgramImage) (hnext : 0 ≤ image.next ∧ image.next ≤ 256) :
    Loaded m image (significantFrom n lines) (loadLines n lines m image) := by
  induction lines generalizing n m image with
  | nil =>
    have hsame : image.extend [] = image := by
      simp [ProgramImage.extend, bytesOf, numbersOf]
    have hnone : ∀ l ∈ ([] : List NumberedLine), ByteLine l.1 :=
      fun l hl => absurd hl List.not_mem_nil
    have hcomplete : Loaded m image [] ⟨m, .ok (image.extend [])⟩ :=
      .complete hnone (by simpa using hnext.2) (poked_nil m image.next)
    rwa [hsame] at hcomplete
  | cons line rest ih =>
    by_cases hblank : BlankLine line
    · -- a blank line only moves the numbers on
      rw [significantFrom_cons_of_blank hblank, loadLines, ofChars_of_blank hblank]
      exact ih hfull (n + 1) image hnext
    · rw [significantFrom_cons_of_not_blank hblank, loadLines]
      by_cases hbyte : ByteLine line
      · rw [ofChars_of_byteLine hbyte]
        show Loaded m image _ (if 256 ≤ image.next then _ else _)
        by_cases hend : 256 ≤ image.next
        · rw [if_pos hend]
          exact .refuse (.tooLong hbyte (by omega)) hnext.2
        · -- below 256 a full block takes the byte
          rw [if_neg hend]
          obtain ⟨m₁, hstore⟩ := Memory.store_isOk_iff (b := lineByte line) |>.mpr
            (hfull.covers_iff.mpr ⟨hnext.1, by omega⟩)
          have hstore' : m.store (image.start + image.size) (lineByte line) = .ok m₁ := hstore
          rw [hstore']
          refine .cons hbyte hstore (ih (hfull.store hstore) (n + 1) _ ?_)
          show 0 ≤ image.start + _ ∧ image.start + _ ≤ 256
          rw [ProgramImage.size_append]
          have hplace : image.next = image.start + image.size := rfl
          omega
      · rw [ofChars_of_malformed hblank hbyte]
        exact .refuse (.malformed hbyte) hnext.2

/-- What loading a text from an address leaves. -/
theorem loaded_loadText (text : String) {start : Int} (hstart : 0 ≤ start ∧ start ≤ 255)
    (name : String) {m : Memory} (hfull : m.Full) :
    Loaded m { name, start } (significant (Text.lines text.toList))
      (loadText text start name m) := by
  have hnext : ProgramImage.next { name, start } = start := Int.add_zero start
  rw [loadText, loadFrom, if_pos ⟨hstart.1, by omega⟩]
  exact loaded_loadLines hfull _ 1 _ (by rw [hnext]; omega)

/-- A refused line is named in the message. -/
theorem Refused.message {a : Int} {l : NumberedLine} {e : LoadError} (h : Refused a l e) :
    ∃ rest, e.message = "line " ++ Text.decimal l.2 ++ rest := by
  cases h with
  | malformed hline => exact ⟨_, by simp only [LoadError.message, String.append_assoc]; rfl⟩
  | tooLong hline ha => exact ⟨_, rfl⟩

/-! ## The main statement -/

/-- **A text loads exactly if it is of the grammar and fits.**

    From a start outside of the address space nothing is loaded.  From any other the load succeeds
    if and only if every line that is not blank holds a byte, and there are at most as many of these
    as addresses.  Then the image has their bytes in order and their numbers, which are strictly
    increasing, and in memory the bytes stand from the start on while nothing else has changed.
    Otherwise the load ends with an error that names the first line which is not blank and malformed
    or, when well formed, would land at address 256; the bytes of the lines before it stand in
    memory, and nothing else has changed. -/
theorem loadText_exactly (text : String) (start : Int) (name : String) {m : Memory}
    (hfull : m.Full) :
    let loading := loadText text start name m
    let ls := significant (Text.lines text.toList)
    (¬ (0 ≤ start ∧ start ≤ 255) → loading = ⟨m, .error (.startOutside start)⟩) ∧
    (0 ≤ start ∧ start ≤ 255 →
      ((∃ image, loading.result = .ok image) ↔
        (∀ l ∈ ls, ByteLine l.1) ∧ ls.length ≤ 256 - start) ∧
      (∀ image, loading.result = .ok image →
        image = { name, start, bytes := bytesOf ls, lines := numbersOf ls } ∧
        image.lines.Pairwise (· < ·) ∧ image.lines.length = image.bytes.length ∧
        Poked m start image.bytes loading.memory) ∧
      ∀ e, loading.result = .error e → ∃ before l after, ls = before ++ l :: after ∧
        (∀ x ∈ before, ByteLine x.1) ∧ start + before.length ≤ 256 ∧
        Refused (start + before.length) l e ∧
        (∃ rest, e.message = "line " ++ Text.decimal l.2 ++ rest) ∧
        Poked m start (bytesOf before) loading.memory) := by
  intro loading ls
  constructor
  · intro houtside
    show loadText text start name m = _
    rw [loadText, loadFrom, if_neg (by omega)]
  · intro hstart
    have hnext : ProgramImage.next { name, start } = start := Int.add_zero start
    have hloaded : Loaded m { name, start } ls loading := loaded_loadText text hstart name hfull
    revert hloaded
    generalize loading = r
    intro hloaded
    cases hloaded with
    | complete hform hfits hmemory =>
      rw [hnext] at hfits hmemory
      refine ⟨⟨fun _ => ⟨hform, by omega⟩, fun _ => ⟨_, rfl⟩⟩, ?_, fun e he => nomatch he⟩
      rintro image ⟨⟩
      refine ⟨rfl, pairwise_significant _, ?_, hmemory⟩
      show (numbersOf ls).length = (bytesOf ls).length
      rw [length_numbersOf, length_bytesOf]
    | @stopped m' before after l e hsplit hform hfits hrefused hmemory =>
      rw [hnext] at hfits hrefused hmemory
      refine ⟨⟨?_, ?_⟩, ?_, ?_⟩
      · rintro ⟨image, ⟨⟩⟩
      · -- the refused line is malformed or one too many
        rintro ⟨hall, hlength⟩
        exfalso
        have hmem : l ∈ ls := by
          rw [hsplit]
          exact List.mem_append_right before List.mem_cons_self
        cases hrefused with
        | malformed hline => exact hline (hall _ hmem)
        | tooLong hline ha =>
          rw [hsplit, List.length_append, List.length_cons] at hlength
          omega
      · rintro image ⟨⟩
      · rintro _ ⟨⟩
        exact ⟨before, l, after, hsplit, hform, hfits, hrefused, hrefused.message, hmemory⟩

/-- A text with a comment and blank lines that loads, and one whose second byte would land past the
    last address, in front of a malformed line. -/
theorem loadText_exactly_at_last_address :
    let m := Memory.holding []
    (∃ image, (loadText "# first\n 101 # five\n\n" 255 "p" m).result = .ok image ∧
      image.bytes = [5] ∧ image.lines = [2]) ∧
    ∃ before l after, significant (Text.lines "1\n0\nx".toList) = before ++ l :: after ∧
      Refused (255 + before.length) l (.tooLong 2) := by
  intro m
  have hfull : m.Full := Memory.full_holding []
  constructor
  · obtain ⟨_, h⟩ := loadText_exactly "# first\n 101 # five\n\n" 255 "p" hfull
    obtain ⟨⟨_, hok⟩, himage, _⟩ := h (by decide)
    obtain ⟨image, hresult⟩ := hok (by decide +kernel)
    obtain ⟨rfl, _⟩ := himage image hresult
    exact ⟨_, hresult, by decide +kernel, by decide +kernel⟩
  · obtain ⟨_, h⟩ := loadText_exactly "1\n0\nx" 255 "p" hfull
    obtain ⟨_, _, herror⟩ := h (by decide)
    obtain ⟨before, l, after, hsplit, _, _, hrefused, _⟩ := herror (.tooLong 2) (by decide +kernel)
    exact ⟨before, l, after, hsplit, hrefused⟩

end Ls8
