import Ls8.Trace.Entry

/-
  A recorder that keeps the most recent entries.

  Entries live in an array that grows up to the capacity and is then overwritten in a circle.
  `next` is where the next entry goes.  While the array still grows that is its end.

  The size is bounded by the capacity, which a recorder carries with it (`size_le`).
-/

namespace Ls8.Trace

/-- Keeps the last `capacity` entries. -/
structure Recorder where
  capacity : Nat
  slots : Array Entry
  /-- The position of the next entry. -/
  next : Nat
  capacity_pos : 0 < capacity
  size_le : slots.size ≤ capacity
  next_lt : next < capacity
  /-- While the array grows, the next entry goes to its end. -/
  next_eq : slots.size < capacity → next = slots.size

/-- Why a recorder cannot have the capacity that was asked for. -/
inductive CapacityError where
  | notPositive
  /-- There is not that much storage. -/
  | beyondStorage
  /-- No index reaches that far. -/
  | beyondIndex
  deriving DecidableEq, Repr

/-- The text of a capacity error. -/
def CapacityError.message : CapacityError → String
  | .notPositive => "capacity must be positive"
  | .beyondStorage => ""
  | .beyondIndex => "cannot fit 'int' into an index-sized integer"

namespace Recorder

/-- The capacity of a recorder when none is asked for. -/
def standardCapacity : Nat := 256

/-- An empty recorder. -/
def empty (capacity : Nat) (h : 0 < capacity) : Recorder where
  capacity := capacity
  slots := #[]
  next := 0
  capacity_pos := h
  size_le := by simp
  next_lt := h
  next_eq := fun _ => rfl

/-- The greatest capacity for which there is storage. -/
def storageLimit : Nat := 0x200000000

/-- The greatest capacity that an index can reach. -/
def indexLimit : Nat := 0x7fffffffffffffff

/-- An empty recorder of the capacity asked for. -/
def create (capacity : Int) : Except CapacityError Recorder :=
  if h : 0 < capacity then
    if capacity ≤ storageLimit then .ok (empty capacity.toNat (by omega))
    else if capacity ≤ indexLimit then .error .beyondStorage
    else .error .beyondIndex
  else .error .notPositive

/-- No recorder, or an empty one if a positive capacity is asked for. -/
def createIfPositive (capacity : Int) : Except CapacityError (Option Recorder) :=
  if 0 < capacity then (create capacity).map some else .ok none

/-- How many entries a recorder holds. -/
def size (r : Recorder) : Nat := r.slots.size

/-- The position after another in the circle. -/
def after (capacity i : Nat) : Nat := if i + 1 = capacity then 0 else i + 1

/-- **Records an entry,** in place of the oldest one once the recorder is full. -/
def record (r : Recorder) (e : Entry) : Recorder :=
  if h : r.next < r.slots.size then
    { r with
      slots := r.slots.set r.next e h
      next := after r.capacity r.next
      size_le := by rw [Array.size_set]; exact r.size_le
      next_lt := by have := r.next_lt; unfold after; split <;> omega
      next_eq := by
        intro hlt
        rw [Array.size_set] at hlt
        have := r.next_eq hlt
        omega }
  else
    have hnext : r.next = r.slots.size := by
      have := r.next_lt
      have := r.size_le
      by_cases hs : r.slots.size < r.capacity
      · exact r.next_eq hs
      · omega
    { r with
      slots := r.slots.push e
      next := after r.capacity r.next
      size_le := by have := r.next_lt; rw [Array.size_push]; omega
      next_lt := by have := r.next_lt; unfold after; split <;> omega
      next_eq := by
        intro hlt
        rw [Array.size_push] at hlt ⊢
        unfold after
        split <;> omega }

/-- How many entries a request for at most `limit` of them gets. -/
def count (r : Recorder) : Option Int → Nat
  | none => r.size
  | some limit => min r.size limit.toNat

/-- The entry `back` steps before the next one, for `1 ≤ back ≤ capacity`. -/
def before? (r : Recorder) (back : Nat) : Option Entry :=
  r.slots[(r.next + r.capacity - back) % r.capacity]?

/-- **The last entries,** at most `limit` of them, the oldest first. -/
def entries (r : Recorder) (limit : Option Int) : List Entry :=
  let n := r.count limit
  (List.range n).filterMap fun k => r.before? (n - k)

/-- The last entry. -/
def last? (r : Recorder) : Option Entry :=
  if r.size = 0 then none else r.before? 1

/-- The lines of the last entries. -/
def lines (r : Recorder) (limit : Option Int) : List String := (r.entries limit).map Entry.line

@[simp] theorem capacity_record (r : Recorder) (e : Entry) :
    (r.record e).capacity = r.capacity := by
  unfold record
  split <;> rfl

/-- **A recorder is made empty,** exactly for a positive capacity for which there is storage. -/
theorem create_eq_ok_iff {asked : Int} {r : Recorder} :
    create asked = .ok r ↔ asked ≤ storageLimit ∧ ∃ hpos, r = empty asked.toNat hpos := by
  rw [create]
  constructor
  · intro h
    split at h
    · split at h
      · rename_i hstored
        cases h
        exact ⟨hstored, _, rfl⟩
      · split at h <;> cases h
    · cases h
  · rintro ⟨hstored, hpos, rfl⟩
    rw [dif_pos (by omega), if_pos hstored]

end Recorder

end Ls8.Trace
