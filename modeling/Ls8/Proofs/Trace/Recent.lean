import Ls8.Trace.Recorder
import Mathlib.Data.List.DropRight

/-
  A recorder keeps the end of what it was given.

  The slots are filled in a circle, so the entries in the order of recording are those from the next
  position on, followed by those before it (`recent`).  While the recorder still grows the next
  position is the end, and the first part is empty.

  Main statements: recording appends an entry and keeps as many of the last ones as there is capacity
  for (`recent_record`, `recent_foldl_record`); a request for entries gets the last ones (`entries_eq`).
-/

namespace Ls8.Trace.Recorder

variable {r : Recorder}

/-- **The entries of a recorder,** the oldest first. -/
def recent (r : Recorder) : List Entry := r.slots.toList.drop r.next ++ r.slots.toList.take r.next

theorem length_recent (r : Recorder) : r.recent.length = r.size := by
  rw [recent, List.length_append, List.length_drop, List.length_take, size, Array.length_toList]
  omega

/-- As long as there is room, the entries stand in their slots in order. -/
theorem recent_of_room (h : r.slots.size ≤ r.next) : r.recent = r.slots.toList := by
  have hlength : r.slots.toList.length ≤ r.next := h
  rw [recent, List.drop_of_length_le hlength, List.take_of_length_le hlength, List.nil_append]

/-- The next entry of a full recorder replaces the oldest one. -/
theorem recent_of_full (h : r.next < r.slots.size) :
    r.recent = r.slots[r.next] :: (r.slots.toList.drop (r.next + 1) ++ r.slots.toList.take r.next) := by
  rw [recent, List.drop_eq_getElem_cons (by simpa using h)]
  rfl

/-- The slots up to an overwritten one. -/
theorem take_set_succ {l : List Entry} {n : Nat} (h : n < l.length) (e : Entry) :
    (l.set n e).take (n + 1) = l.take n ++ [e] := by
  rw [List.take_add_one, List.take_set_of_le (Nat.le_refl n), List.getElem?_set_self h]
  rfl

/-- **Recording** appends an entry, and drops the oldest one if there is no room for both. -/
theorem recent_record (r : Recorder) (e : Entry) :
    (r.record e).recent = (r.recent ++ [e]).rtake r.capacity := by
  have hsize := r.size_le
  have hnext := r.next_lt
  have hlength : r.recent.length = r.slots.size := length_recent r
  by_cases h : r.next < r.slots.size
  · -- The recorder is full: the entry takes the place of the oldest one.
    have hfull : r.slots.size = r.capacity := by
      by_contra hne
      have := r.next_eq (by omega)
      omega
    have hkept : (r.recent ++ [e]).rtake r.capacity =
        r.slots.toList.drop (r.next + 1) ++ (r.slots.toList.take r.next ++ [e]) := by
      rw [List.rtake, List.length_append, hlength, hfull, List.length_singleton,
        Nat.add_sub_cancel_left, recent_of_full h, List.cons_append, List.drop_succ_cons,
        List.drop_zero, List.append_assoc]
    have hslots : (r.record e).slots.toList = r.slots.toList.set r.next e := by
      rw [record, dif_pos h]
      exact Array.toList_set _ _ _ h
    have hafter : (r.record e).next = after r.capacity r.next := by
      rw [record, dif_pos h]
    have hlt : r.next < r.slots.toList.length := h
    have htake := take_set_succ hlt e
    have hdrop : (r.slots.toList.set r.next e).drop (r.next + 1) = r.slots.toList.drop (r.next + 1) :=
      List.drop_set_of_lt (Nat.lt_succ_self _)
    rw [hkept, recent, hslots, hafter, after, ← htake, ← hdrop]
    split
    · next hlast =>
      -- After the last slot the circle begins again, and the slots stand in order.
      rw [List.drop_zero, List.take_zero, List.append_nil,
        List.drop_of_length_le (by rw [List.length_set, Array.length_toList]; omega),
        List.take_of_length_le (by rw [List.length_set, Array.length_toList]; omega),
        List.nil_append]
    · rfl
  · -- There is room: the entries stand in order, and the new one is put at their end.
    have hslots : (r.record e).slots.toList = r.slots.toList ++ [e] := by
      rw [record, dif_neg h]
      exact Array.toList_push
    have hafter : (r.record e).next = after r.capacity r.next := by
      rw [record, dif_neg h]
    have hkept : (r.recent ++ [e]).rtake r.capacity = r.slots.toList ++ [e] := by
      have hroom : r.slots.size + 1 - r.capacity = 0 := by
        have := r.next_eq
        omega
      rw [List.rtake, List.length_append, hlength, List.length_singleton, hroom, List.drop_zero,
        recent_of_room (by omega)]
    have hsucc : r.next + 1 = (r.slots.toList ++ [e]).length := by
      rw [List.length_append, Array.length_toList, List.length_singleton]
      have := r.next_eq
      omega
    rw [hkept, recent, hslots, hafter, after]
    split
    · rw [List.drop_zero, List.take_zero, List.append_nil]
    · rw [hsucc, List.drop_length, List.take_length, List.nil_append]

/-- The entry so many steps before the next one. -/
theorem before?_eq {back : Nat} (hpos : 0 < back) (hle : back ≤ r.size) :
    r.before? back = r.recent[r.size - back]? := by
  have hsize : r.slots.size ≤ r.capacity := r.size_le
  have hnext := r.next_lt
  have heq := r.next_eq
  have hlength : r.slots.toList.length = r.slots.size := Array.length_toList
  rw [size] at hle ⊢
  rw [before?, recent, List.getElem?_append, List.length_drop, hlength]
  by_cases hback : back ≤ r.next
  · -- It was recorded since the circle began.
    have hmod : (r.next + r.capacity - back) % r.capacity = r.next - back := by
      rw [Nat.sub_add_comm hback, Nat.add_mod_right, Nat.mod_eq_of_lt (by omega)]
    rw [hmod]
    split
    · have : r.slots.size = r.next := by omega
      omega
    · rw [List.getElem?_take_of_lt (by omega), Array.getElem?_toList]
      congr 1
      omega
  · -- It was recorded before that, which only happens to a full recorder.
    have hfull : r.slots.size = r.capacity := by omega
    have hmod : (r.next + r.capacity - back) % r.capacity = r.next + r.capacity - back :=
      Nat.mod_eq_of_lt (by omega)
    rw [hmod, if_pos (by omega), List.getElem?_drop, Array.getElem?_toList]
    congr 1
    omega

/-- Asking for every position of a list gets the list. -/
theorem filterMap_getElem?_range (l : List Entry) :
    (List.range l.length).filterMap (l[·]?) = l := by
  induction l with
  | nil => rfl
  | cons e l ih =>
    rw [List.length_cons, List.range_succ_eq_map, List.filterMap_cons, List.getElem?_cons_zero,
      List.filterMap_map]
    exact congrArg (e :: ·) ih

/-- **A request for entries gets the last ones.** -/
theorem entries_eq (r : Recorder) (limit : Option Int) :
    r.entries limit = r.recent.rtake (r.count limit) := by
  have hcount : r.count limit ≤ r.size := by
    cases limit with
    | none => exact Nat.le_refl _
    | some limit => exact Nat.min_le_left ..
  have hlength : (r.recent.rtake (r.count limit)).length = r.count limit := by
    rw [List.rtake, List.length_drop, length_recent]
    omega
  rw [entries, ← filterMap_getElem?_range (r.recent.rtake _), hlength]
  refine List.filterMap_congr fun k hk => ?_
  have hlt := List.mem_range.mp hk
  rw [before?_eq (by omega) (by omega), List.rtake, List.getElem?_drop, length_recent]
  congr 1
  omega

/-- A request for all entries gets them all. -/
theorem entries_none (r : Recorder) : r.entries none = r.recent := by
  rw [entries_eq, List.rtake, length_recent]
  show r.recent.drop (r.size - r.size) = r.recent
  rw [Nat.sub_self, List.drop_zero]

/-! ## Recording more than once -/

/-- What an earlier cut took away, a later one would have taken away as well. -/
theorem rtake_append_rtake (l m : List Entry) (n : Nat) :
    (l.rtake n ++ m).rtake n = (l ++ m).rtake n := by
  have happend : l.rtake n ++ m = (l ++ m).drop (l.length - n) := by
    rw [List.rtake, List.drop_append_of_le_length (Nat.sub_le ..)]
  rw [happend, List.rtake, List.rtake, List.drop_drop, List.length_drop, List.length_append]
  congr 1
  omega

/-- **After any number of entries** a recorder holds as many of the last ones as there is capacity
    for. -/
theorem recent_foldl_record (r : Recorder) (es : List Entry) :
    (es.foldl record r).capacity = r.capacity ∧
      (es.foldl record r).recent = (r.recent ++ es).rtake r.capacity := by
  induction es generalizing r with
  | nil =>
    have hsize : r.size ≤ r.capacity := r.size_le
    refine ⟨rfl, ?_⟩
    rw [List.foldl_nil, List.append_nil, List.rtake, length_recent, Nat.sub_eq_zero_of_le hsize,
      List.drop_zero]
  | cons e es ih =>
    obtain ⟨hcapacity, hrecent⟩ := ih (r.record e)
    rw [capacity_record] at hcapacity hrecent
    refine ⟨hcapacity, ?_⟩
    rw [List.foldl_cons, hrecent, recent_record, rtake_append_rtake, List.append_assoc]
    rfl

end Ls8.Trace.Recorder
