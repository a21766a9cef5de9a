import Ls8.Memory

/-
  A block is a partial map.

  1. **The map** has no bytes and no positions.  What it holds at an address is told by the accesses so
     far: the value of the last write there that was accepted, unless the block was cleared since, and
     zero if there was none (`lastWrite?`).

  2. **The relation** (`Reflects`) says that a block covers the addresses from its start on, and holds
     there what the map does.  Each access keeps it (`Reflects.access`), so any sequence of them does
     (`Reflects.after`).

  3. **The crux** is a write that is refused, for its value or for its address: neither the block nor
     the map must notice it.  An address below the start has a negative position, which is no position
     of the block.

  Main statement: `block_is_partial_map`.
-/

namespace Ls8.Memory

variable {m m' : Memory} {start length a value : Int}

/-- A write is accepted exactly if the value is a byte and the block covers the address. -/
theorem write_isOk_iff :
    (∃ m', m.write a value = .ok m') ↔ (0 ≤ value ∧ value ≤ 255) ∧ m.Covers a := by
  unfold write
  cases hvalue : toByte? value with
  | none =>
    have hrange := toByte?_eq_none_iff.mp hvalue
    simp only [reduceCtorEq, exists_false, false_iff]
    omega
  | some b =>
    have hb := b.toNat_lt
    have hrange : 0 ≤ value ∧ value ≤ 255 := by
      rw [← toByte?_eq_some_iff.mp hvalue]
      omega
    exact store_isOk_iff.trans (and_iff_right hrange).symm

/-- A write that is accepted stores the byte that the value is. -/
theorem exists_store_of_write (h : m.write a value = .ok m') :
    ∃ b : UInt8, (b.toNat : Int) = value ∧ m.store a b = .ok m' := by
  unfold write at h
  cases hvalue : toByte? value with
  | none =>
    rw [hvalue] at h
    cases h
  | some b =>
    rw [hvalue] at h
    exact ⟨b, toByte?_eq_some_iff.mp hvalue, h⟩

/-! ## Accesses -/

/-- What is done with a block. -/
inductive Access where
  | read (a : Int)
  | write (a value : Int)
  | clear

/-- The block after an access; one that is refused leaves it as it was. -/
def access (m : Memory) : Access → Memory
  | .read _ => m
  | .write a value =>
    match m.write a value with
    | .ok m' => m'
    | .error _ => m
  | .clear => m.clear

/-- **The block after any accesses,** the earliest first. -/
def after (m : Memory) (log : List Access) : Memory := log.foldl access m

/-- A block of so many addresses from a start accepts a write. -/
def Accepts (start length a value : Int) : Prop :=
  (0 ≤ value ∧ value ≤ 255) ∧ start ≤ a ∧ a < start + length

instance (start length a value : Int) : Decidable (Accepts start length a value) := instDecidableAnd

/-- **The last write** to an address that was accepted since the block was last cleared, given the
    accesses with the latest one first. -/
def lastWrite? (start length a : Int) : List Access → Option Int
  | [] => none
  | .clear :: _ => none
  | .read _ :: earlier => lastWrite? start length a earlier
  | .write b value :: earlier =>
    if b = a ∧ Accepts start length b value then some value else lastWrite? start length a earlier

/-! ## The relation -/

/-- **A block holds what the map does** after accesses, the latest one first. -/
structure Reflects (m : Memory) (start length : Int) (log : List Access) : Prop where
  start_eq : (m.start : Int) = start
  length_eq : (m.length : Int) = length
  byte : ∀ a, m.Covers a →
    ∃ b, m.get? a = some b ∧ (b.toNat : Int) = (lastWrite? start length a log).getD 0

variable {log : List Access}

theorem Reflects.covers_iff (h : m.Reflects start length log) :
    m.Covers a ↔ start ≤ a ∧ a < start + length := by
  rw [Covers, h.start_eq, h.length_eq]

theorem Reflects.accepts_iff (h : m.Reflects start length log) :
    Accepts start length a value ↔ ∃ m', m.write a value = .ok m' := by
  rw [write_isOk_iff, h.covers_iff, Accepts]

/-- A new block holds nothing. -/
theorem reflects_create (h : create start length = .ok m) : m.Reflects start length [] := by
  obtain ⟨hstart, hlength⟩ := create_bounds h
  refine ⟨hstart, hlength, fun a ha => ⟨0, ?_, rfl⟩⟩
  rw [Covers, hstart, hlength] at ha
  rw [get?_create h, if_pos ha]

/-- **An access keeps the relation.** -/
theorem Reflects.access (h : m.Reflects start length log) (x : Access) :
    (m.access x).Reflects start length (x :: log) := by
  cases x with
  | read a => exact ⟨h.start_eq, h.length_eq, h.byte⟩
  | clear =>
    refine ⟨h.start_eq, h.length_eq, fun a ha => ⟨0, ?_, rfl⟩⟩
    have ha' : m.Covers a := ha
    obtain ⟨b, hb, _⟩ := h.byte a ha'
    show m.clear.get? a = some 0
    rw [get?_clear, hb]
    rfl
  | write a value =>
    rw [Memory.access]
    cases hwrite : m.write a value with
    | ok m' =>
      obtain ⟨b, rfl, hstore⟩ := exists_store_of_write hwrite
      obtain ⟨hstart, hlength⟩ := store_bounds hstore
      refine ⟨hstart ▸ h.start_eq, hlength ▸ h.length_eq, fun x hx => ?_⟩
      have haccepted := h.accepts_iff.mpr ⟨m', hwrite⟩
      simp only [get?_store hstore, lastWrite?]
      by_cases hxa : x = a
      · rw [if_pos hxa, if_pos ⟨hxa.symm, haccepted⟩]
        exact ⟨b, rfl, rfl⟩
      · rw [if_neg hxa, if_neg fun hsame => hxa hsame.1.symm]
        exact h.byte x ((store_covers hstore).mp hx)
    | error e =>
      -- the map ignores the write as well
      have hrefused : ¬ Accepts start length a value := by
        rw [h.accepts_iff, hwrite]
        exact fun ⟨_, hok⟩ => nomatch hok
      refine ⟨h.start_eq, h.length_eq, fun x hx => ?_⟩
      rw [lastWrite?, if_neg fun haccepted => hrefused haccepted.2]
      exact h.byte x hx

/-- **Any accesses keep the relation.** -/
theorem Reflects.after (h : m.Reflects start length log) (more : List Access) :
    (m.after more).Reflects start length (more.reverse ++ log) := by
  induction more generalizing m log with
  | nil => exact h
  | cons x more ih =>
    rw [List.reverse_cons, List.append_assoc]
    exact ih (h.access x)

/-! ## The main statement -/

/-- **A block is a partial map.**  A block can be made exactly if it starts at no negative address, is not
    empty, and lies below address 256.  After any accesses to a new one, with any integers:

    1. Reading an address is refused exactly if it lies outside the block; otherwise it gives the value
       of the last write there that was accepted since the block was last cleared, or zero.
    2. A write is refused exactly if the value is no byte or the address lies outside the block, and
       then the block stays as it was.
    3. The bytes of the block are as many as its addresses, and each is the one read at its address. -/
theorem block_is_partial_map (start length : Int) :
    ((∃ m, create start length = .ok m) ↔ 0 ≤ start ∧ 0 < length ∧ start + length ≤ 256) ∧
    ∀ m, create start length = .ok m → ∀ log : List Access,
      let now := m.after log
      (∀ a, ((∃ e, now.read a = .error e) ↔ ¬ (start ≤ a ∧ a < start + length)) ∧
        ((start ≤ a ∧ a < start + length) → ∃ b, now.read a = .ok b ∧
          (b.toNat : Int) = (lastWrite? start length a log.reverse).getD 0)) ∧
      (∀ a value, ((∃ e, now.write a value = .error e) ↔
          ¬ (0 ≤ value ∧ value ≤ 255) ∨ ¬ (start ≤ a ∧ a < start + length)) ∧
        ((∃ e, now.write a value = .error e) → m.after (log ++ [.write a value]) = now)) ∧
      (now.bytes.length : Int) = length ∧
      ∀ k : Nat, k < length → ∃ b, now.bytes[k]? = some b ∧ now.read (start + k) = .ok b := by
  refine ⟨create_isOk_iff, fun m hnew log => ?_⟩
  intro now
  have hnow : now.Reflects start length log.reverse := by
    rw [← List.append_nil log.reverse]
    exact (reflects_create hnew).after log
  have hread (a : Int) (ha : start ≤ a ∧ a < start + length) : ∃ b, now.read a = .ok b ∧
      (b.toNat : Int) = (lastWrite? start length a log.reverse).getD 0 := by
    obtain ⟨b, hget, hvalue⟩ := hnow.byte a (hnow.covers_iff.mpr ha)
    exact ⟨b, read_eq_ok_iff.mpr hget, hvalue⟩
  refine ⟨fun a => ⟨?_, hread a⟩, fun a value => ⟨?_, ?_⟩, ?_, fun k hk => ?_⟩
  · rw [← hnow.covers_iff]
    constructor
    · rintro ⟨e, he⟩
      exact (read_eq_error_iff.mp he).1
    · intro hout
      exact ⟨_, read_eq_error_iff.mpr ⟨hout, rfl⟩⟩
  · have hrefused : (∃ e, now.write a value = .error e) ↔ ¬ ∃ m', now.write a value = .ok m' := by
      cases now.write a value with
      | ok m' => simp
      | error e => simp
    rw [hrefused, ← hnow.accepts_iff, Accepts, Decidable.not_and_iff_not_or_not]
  · rintro ⟨e, hrefused⟩
    rw [after, List.foldl_append]
    show now.access (.write a value) = now
    rw [access, hrefused]
  · rw [length_bytes, hnow.length_eq]
  · obtain ⟨b, hok, _⟩ := hread (start + k) (by omega)
    refine ⟨b, ?_, hok⟩
    rw [getElem?_bytes, hnow.start_eq]
    exact read_eq_ok_iff.mp hok

/-- A block of four bytes that starts at sixteen: one write is accepted, one is refused for its address,
    whose position would be minus one, and one for its value. -/
theorem block_is_partial_map_of_offset_block :
    ∃ m, create 16 4 = .ok m ∧
      let log : List Access := [.write 17 9, .clear, .write 19 7, .write 15 8, .write 19 256]
      (∃ b, (m.after log).read 19 = .ok b ∧ (b.toNat : Int) = 7) ∧
      (∃ b, (m.after log).read 17 = .ok b ∧ (b.toNat : Int) = 0) ∧
      (∃ e, (m.after log).read 15 = .error e) ∧
      m.after (log ++ [.write (-1) 8]) = m.after log ∧
      (m.after log).bytes = [0, 0, 0, 7] := by
  obtain ⟨hcreated, hafter⟩ := block_is_partial_map 16 4
  obtain ⟨m, hm⟩ := hcreated.mpr (by decide)
  refine ⟨m, hm, ?_⟩
  intro log
  obtain ⟨hread, hwrite, _⟩ := hafter m hm log
  refine ⟨(hread 19).2 (by decide), (hread 17).2 (by decide), (hread 15).1.mpr (by decide),
    (hwrite (-1) 8).2 ((hwrite (-1) 8).1.mpr (by decide)), ?_⟩
  cases hm
  decide +kernel

end Ls8.Memory
