import Ls8.Clock.Schedule
import Ls8.Seconds

/-
  Times that are ordered as far as they are defined.

  A number of seconds may be undefined, and then it is not even equal to itself.  All other numbers
  are put into a linear order, so a time is defined exactly if it is not later than itself
  (`TimeLaws`; `timeLaws_seconds`).

  1. **Heaps.**  What a heap does depends on the answers of its test for the items that are in it
     (`push_congr`, `pop?_congr`).  A test that orders the items of one kind can be completed by
     putting all other items behind them (`orders_behind`).  So pushing and popping keep a heap of
     items of that kind (`isHeap_push_on`, `isHeap_pop?_on`).

  2. **Events.**  Events with defined due times are such a kind (`ordersOn_before`), and the top of
     a heap of them comes before all others (`before_of_top?`).

  3. **Seconds.**  A binary double has a place among all others unless it is undefined: that of its
     class, its exponent and its mantissa (`rank`), and the comparison of doubles is the
     lexicographic one of their places (`compare_eq_comparePlaces`).
-/

namespace Ls8.Clock

/-! ## Heaps of items of one kind -/

namespace Heap

variable {α : Type} {before before' : α → α → Bool} {x : α} {h : Heap α}

theorem onLeft_congr {y : α} (hxy : before x y = before' x y) (r : Heap α) (s : Rising α) :
    s.onLeft before x y r = s.onLeft before' x y r := by
  cases s with
  | risen a b => rw [Rising.onLeft, Rising.onLeft, hxy]
  | settled l => rfl

theorem onRight_congr {y : α} (hxy : before x y = before' x y) (l : Heap α) (s : Rising α) :
    s.onRight before x l y = s.onRight before' x l y := by
  cases s with
  | risen a b => rw [Rising.onRight, Rising.onRight, hxy]
  | settled r => rfl

theorem putAt_congr (hx : ∀ y ∈ h.toList, before x y = before' x y) (way : List Bool) :
    putAt before x way h = putAt before' x way h := by
  induction h generalizing way with
  | empty => rfl
  | node l y r ihl ihr =>
    have hxy : before x y = before' x y := hx y List.mem_cons_self
    have hl : ∀ z ∈ l.toList, before x z = before' x z := by
      intro z hz
      exact hx z (List.mem_cons_of_mem y (List.mem_append_left _ hz))
    have hr : ∀ z ∈ r.toList, before x z = before' x z := by
      intro z hz
      exact hx z (List.mem_cons_of_mem y (List.mem_append_right _ hz))
    rw [putAt, putAt]
    split
    · rw [ihr hr, onRight_congr hxy]
    · rw [ihl hl, onLeft_congr hxy]

/-- Pushing compares the new item with the others only. -/
theorem push_congr (hx : ∀ y ∈ h.toList, before x y = before' x y) :
    h.push before x = h.push before' x := by
  rw [push, push, putAt_congr hx]

theorem mem_toList_of_top? {t : α} (ht : h.top? = some t) : t ∈ h.toList := by
  rw [toList_of_top? ht]
  exact List.mem_cons_self

theorem refill_congr (hx : ∀ y ∈ h.toList, before x y = before' x y)
    (hall : ∀ y ∈ h.toList, ∀ z ∈ h.toList, before y z = before' y z) :
    refill before x h = refill before' x h := by
  induction h with
  | empty => rfl
  | node l y r ihl ihr =>
    have inl {z : α} (hz : z ∈ l.toList) : z ∈ (node l y r).toList :=
      List.mem_cons_of_mem y (List.mem_append_left _ hz)
    have inr {z : α} (hz : z ∈ r.toList) : z ∈ (node l y r).toList :=
      List.mem_cons_of_mem y (List.mem_append_right _ hz)
    have hl := ihl (fun z hz => hx z (inl hz)) fun a ha b hb => hall a (inl ha) b (inl hb)
    have hr := ihr (fun z hz => hx z (inr hz)) fun a ha b hb => hall a (inr ha) b (inr hb)
    rw [refill, refill]
    split
    · rfl
    · rename_i a ha _
      rw [hl, onLeft_congr (hx a (inl (mem_toList_of_top? ha)))]
    · rename_i b _ hb
      rw [hr, onRight_congr (hx b (inr (mem_toList_of_top? hb)))]
    · rename_i a b ha hb
      have ha := inl (mem_toList_of_top? ha)
      have hb := inr (mem_toList_of_top? hb)
      rw [hall a ha b hb, hl, hr, onLeft_congr (hx a ha), onRight_congr (hx b hb)]

/-- Popping compares the items of the heap only. -/
theorem pop?_congr (hall : ∀ y ∈ h.toList, ∀ z ∈ h.toList, before y z = before' y z) :
    h.pop? before = h.pop? before' := by
  rw [pop?, pop?]
  cases ht : takeAt (path (h.size - 1)) h with
  | none => rfl
  | some taken =>
    obtain ⟨last, rest⟩ := taken
    have hperm := toList_takeAt ht
    have hlast : last ∈ h.toList := hperm.mem_iff.mp List.mem_cons_self
    have hrest : ∀ z ∈ rest.toList, z ∈ h.toList := by
      intro z hz
      exact hperm.mem_iff.mp (List.mem_cons_of_mem last hz)
    have hrefill : refill before last rest = refill before' last rest := by
      refine refill_congr (fun z hz => hall last hlast z (hrest z hz)) fun y hy z hz => ?_
      exact hall y (hrest y hy) z (hrest z hz)
    simp only [Option.map_some, hrefill]

theorem isHeap_congr (hall : ∀ y ∈ h.toList, ∀ z ∈ h.toList, before y z = before' y z) :
    h.IsHeap before ↔ h.IsHeap before' := by
  induction h with
  | empty => exact Iff.rfl
  | node l x r ihl ihr =>
    have inl {z : α} (hz : z ∈ l.toList) : z ∈ (node l x r).toList :=
      List.mem_cons_of_mem x (List.mem_append_left _ hz)
    have inr {z : α} (hz : z ∈ r.toList) : z ∈ (node l x r).toList :=
      List.mem_cons_of_mem x (List.mem_append_right _ hz)
    rw [IsHeap, IsHeap, ihl fun a ha b hb => hall a (inl ha) b (inl hb),
      ihr fun a ha b hb => hall a (inr ha) b (inr hb)]
    refine and_congr_left fun _ => ?_
    constructor
    · intro hx y hy
      rw [← hall y (List.mem_cons_of_mem x hy) x List.mem_cons_self]
      exact hx y hy
    · intro hx y hy
      rw [hall y (List.mem_cons_of_mem x hy) x List.mem_cons_self]
      exact hx y hy

/-- A test that puts the items of a kind into an order. -/
structure OrdersOn (P : α → Prop) (before : α → α → Bool) : Prop where
  asymm : ∀ {a b : α}, P a → P b → before a b = true → before b a = false
  trans : ∀ {a b c : α}, P a → P b → P c → before b a = false → before c b = false →
    before c a = false

variable {P : α → Prop} [DecidablePred P]

/-- The test that puts all other items behind those of a kind. -/
def behind (P : α → Prop) [DecidablePred P] (before : α → α → Bool) (a b : α) : Bool :=
  decide (P a) && (!decide (P b) || before a b)

theorem behind_of_kind {a b : α} (ha : P a) (hb : P b) : behind P before a b = before a b := by
  simp [behind, ha, hb]

/-- **A test that orders the items of a kind** orders all of them if the others are put behind. -/
theorem orders_behind (ho : OrdersOn P before) : Orders (behind P before) := by
  constructor
  · intro a b h
    by_cases ha : P a
    · by_cases hb : P b
      · rw [behind_of_kind ha hb] at h
        rw [behind_of_kind hb ha]
        exact ho.asymm ha hb h
      · simp [behind, hb]
    · simp [behind, ha] at h
  · intro a b c hba hcb
    by_cases hc : P c
    · -- `b` is not behind `c`, and `a` is not behind `b`
      have hb : P b := by
        refine Classical.byContradiction fun hb => ?_
        simp [behind, hc, hb] at hcb
      have ha : P a := by
        refine Classical.byContradiction fun ha => ?_
        simp [behind, hb, ha] at hba
      rw [behind_of_kind hb ha] at hba
      rw [behind_of_kind hc hb] at hcb
      rw [behind_of_kind hc ha]
      exact ho.trans ha hb hc hba hcb
    · simp [behind, hc]

/-- Pushing keeps a heap of items of a kind. -/
theorem isHeap_push_on (ho : OrdersOn P before) (hx : P x) (hall : ∀ y ∈ h.toList, P y)
    (hh : h.IsHeap before) : (h.push before x).IsHeap before := by
  have hsame : ∀ y ∈ h.toList, before x y = behind P before x y := by
    intro y hy
    exact (behind_of_kind hx (hall y hy)).symm
  have hheap : h.IsHeap (behind P before) := by
    refine (isHeap_congr fun y hy z hz => ?_).mp hh
    exact (behind_of_kind (hall y hy) (hall z hz)).symm
  have hkind : ∀ y ∈ (h.push before x).toList, P y := by
    intro y hy
    rcases List.mem_cons.mp ((toList_push before x h).mem_iff.mp hy) with rfl | hy
    · exact hx
    · exact hall y hy
  refine (isHeap_congr fun y hy z hz => ?_).mpr
    ((push_congr hsame) ▸ isHeap_push (orders_behind ho) x hheap)
  exact (behind_of_kind (hkind y hy) (hkind z hz)).symm

/-- Popping keeps a heap of items of a kind, and no item that is left comes before the one that was
    popped. -/
theorem isHeap_pop?_on (ho : OrdersOn P before) (hall : ∀ y ∈ h.toList, P y)
    (hh : h.IsHeap before) {rest : Heap α} (hp : h.pop? before = some (x, rest)) :
    rest.IsHeap before := by
  have hsame : ∀ y ∈ h.toList, ∀ z ∈ h.toList, before y z = behind P before y z := by
    intro y hy z hz
    exact (behind_of_kind (hall y hy) (hall z hz)).symm
  have hrest : ∀ y ∈ rest.toList, y ∈ h.toList := by
    intro y hy
    exact (toList_of_pop? hp).mem_iff.mp (List.mem_cons_of_mem x hy)
  rw [pop?_congr hsame] at hp
  refine (isHeap_congr fun y hy z hz => ?_).mpr
    (isHeap_of_pop? (orders_behind ho) ((isHeap_congr hsame).mp hh) hp)
  exact hsame y (hrest y hy) z (hrest z hz)

end Heap

/-! ## Events with defined times -/

/-- **Times that are ordered as far as they are defined;** a time is defined if it is not later than
    itself. -/
structure TimeLaws (τ : Type) [LE τ] [LT τ] : Prop where
  lt_iff : ∀ s t : τ, s < t ↔ s ≤ t ∧ ¬ t ≤ s
  trans : ∀ s t u : τ, s ≤ t → t ≤ u → s ≤ u
  total : ∀ s t : τ, s ≤ s → t ≤ t → s ≤ t ∨ t ≤ s
  /-- Only defined times can be compared. -/
  defined : ∀ s t : τ, s ≤ t → s ≤ s ∧ t ≤ t

variable {τ κ : Type} [LE τ] [LT τ]

namespace TimeLaws

variable {a b c : τ}

theorem lt_of_le_of_lt (laws : TimeLaws τ) (hab : a ≤ b) (hbc : b < c) : a < c := by
  obtain ⟨hle, hnot⟩ := (laws.lt_iff b c).mp hbc
  exact (laws.lt_iff a c).mpr ⟨laws.trans a b c hab hle, fun hca => hnot (laws.trans c a b hca hab)⟩

theorem not_le_of_lt (laws : TimeLaws τ) (hab : a < b) : ¬ b ≤ a := ((laws.lt_iff a b).mp hab).2

/-- Of two times that are defined, one comes after the other unless it is not later. -/
theorem not_le_iff (laws : TimeLaws τ) (ha : a ≤ a) (hb : b ≤ b) : ¬ b ≤ a ↔ a < b := by
  rw [laws.lt_iff]
  exact ⟨fun hnot => ⟨(laws.total a b ha hb).resolve_right hnot, hnot⟩, And.right⟩

/-- What comes after a time is defined. -/
theorem defined_of_lt (laws : TimeLaws τ) (hab : a < b) : b ≤ b :=
  (laws.defined a b ((laws.lt_iff a b).mp hab).1).2

end TimeLaws

/-- The due time of an event is defined. -/
def Event.Defined (e : Event τ κ) : Prop := e.due ≤ e.due

instance [DecidableLE τ] : DecidablePred (Event.Defined : Event τ κ → Prop) :=
  fun e => inferInstanceAs (Decidable (e.due ≤ e.due))

variable [DecidableLE τ] [DecidableLT τ]

/-- **Events with defined times** are put into an order: times that are defined are linearly
    ordered. -/
theorem ordersOn_before (laws : TimeLaws τ) :
    Heap.OrdersOn (Event.Defined : Event τ κ → Prop) Event.before := by
  let defined := { t : τ // t ≤ t }
  let _ : LE defined := ⟨fun s t => s.1 ≤ t.1⟩
  let _ : LT defined := ⟨fun s t => s.1 < t.1⟩
  let _ : DecidableLE defined := fun s t => inferInstanceAs (Decidable (s.1 ≤ t.1))
  let _ : DecidableLT defined := fun s t => inferInstanceAs (Decidable (s.1 < t.1))
  have ho : Heap.Orders (Event.before : Event defined κ → Event defined κ → Bool) :=
    orders_before (fun s t => laws.lt_iff s.1 t.1) (fun s t u => laws.trans s.1 t.1 u.1)
      fun s t => laws.total s.1 t.1 s.2 t.2
  let lift (e : Event τ κ) (he : e.Defined) : Event defined κ :=
    ⟨⟨e.due, he⟩, e.sequence, ⟨e.source.name, ⟨e.due, he⟩, e.source.command⟩⟩
  constructor
  · intro a b ha hb h
    exact ho.asymm (a := lift a ha) (b := lift b hb) h
  · intro a b c ha hb hc hba hcb
    exact ho.trans (a := lift a ha) (b := lift b hb) (c := lift c hc) hba hcb

/-- Of two events with different numbers, one comes before the other. -/
theorem before_of_before_eq_false (laws : TimeLaws τ) {a b : Event τ κ} (ha : a.Defined)
    (hb : b.Defined) (hne : b.sequence ≠ a.sequence) (h : b.before a = false) :
    a.before b = true := by
  have htotal := laws.total a.due b.due ha hb
  simp only [Event.before, laws.lt_iff, Bool.or_eq_false_iff, Bool.and_eq_false_iff,
    Bool.or_eq_true, Bool.and_eq_true, decide_eq_false_iff_not, decide_eq_true_eq] at h ⊢
  by_cases hle : b.due ≤ a.due
  · -- due at the same time: the numbers decide
    have hge : a.due ≤ b.due := Classical.byContradiction fun hnot => h.1 ⟨hle, hnot⟩
    have hseq : ¬ b.sequence < a.sequence := by
      rcases h.2 with (hnot | hnot) | hnot
      · exact absurd hle hnot
      · exact absurd hge hnot
      · exact hnot
    exact .inr ⟨⟨hge, hle⟩, by omega⟩
  · exact .inl ⟨htotal.resolve_right hle, hle⟩

/-- The top of a heap of events with defined times and different numbers comes before all others. -/
theorem before_of_top? (laws : TimeLaws τ) {h : Heap (Event τ κ)} {top : Event τ κ}
    (hh : h.IsHeap Event.before) (hall : ∀ e ∈ h.toList, e.Defined)
    (hnodup : (h.toList.map (·.sequence)).Nodup) (htop : h.top? = some top) :
    ∀ e ∈ h.toList, e = top ∨ top.before e = true := by
  have hlist := Heap.toList_of_top? htop
  intro e he
  rw [hlist] at he
  rcases List.mem_cons.mp he with rfl | he'
  · exact .inl rfl
  · have hlater := Heap.before_top?_eq_false hh htop e he'
    rw [hlist, List.map_cons, List.nodup_cons] at hnodup
    have hne : e.sequence ≠ top.sequence := by
      intro hsame
      exact hnodup.1 (hsame ▸ List.mem_map_of_mem he')
    have hdefined : e.Defined := hall e (hlist ▸ List.mem_cons_of_mem top he')
    exact .inr (before_of_before_eq_false laws (hall top (Heap.mem_toList_of_top? htop)) hdefined
      hne hlater)

end Ls8.Clock

/-! ## Seconds -/

namespace Ls8.Seconds

open Float.Model

/-- **The place of a number** among all numbers that are defined: its class, and within its class
    its exponent and its mantissa, which count backwards for negative numbers. -/
def rank : UnpackedFloat → Option (Int × Int × Int)
  | .notANumber => none
  | .infinity .negative => some (-2, 0, 0)
  | .finite .negative m e _ => some (-1, -e, -m)
  | .zero _ => some (0, 0, 0)
  | .finite .positive m e _ => some (1, e, m)
  | .infinity .positive => some (2, 0, 0)

/-- Places are compared from the first number to the last one. -/
def comparePlaces (a b : Int × Int × Int) : Ordering :=
  (compare a.1 b.1).then ((compare a.2.1 b.2.1).then (compare a.2.2 b.2.2))

theorem isLE_comparePlaces (a b : Int × Int × Int) : (comparePlaces a b).isLE = true ↔
    a.1 < b.1 ∨ a.1 = b.1 ∧ (a.2.1 < b.2.1 ∨ a.2.1 = b.2.1 ∧ a.2.2 ≤ b.2.2) := by
  simp [comparePlaces, Ordering.isLE_then_iff_or, Int.compare_eq_lt, Int.isLE_compare]

theorem comparePlaces_eq_lt (a b : Int × Int × Int) : comparePlaces a b = .lt ↔
    a.1 < b.1 ∨ a.1 = b.1 ∧ (a.2.1 < b.2.1 ∨ a.2.1 = b.2.1 ∧ a.2.2 < b.2.2) := by
  simp [comparePlaces, Ordering.then_eq_lt, Int.compare_eq_lt]

theorem compare_neg (a b : Int) : compare (-a) (-b) = (compare a b).swap := by
  rcases Int.lt_trichotomy a b with hlt | heq | hgt
  · rw [Int.compare_eq_lt.mpr hlt, Int.compare_eq_gt.mpr (Int.neg_lt_neg hlt)]
    rfl
  · rw [Int.compare_eq_eq.mpr heq, Int.compare_eq_eq.mpr (congrArg Neg.neg heq)]
    rfl
  · rw [Int.compare_eq_gt.mpr hgt, Int.compare_eq_lt.mpr (Int.neg_lt_neg hgt)]
    rfl

theorem compare_natCast (m n : Nat) : compare (m : Int) (n : Int) = compare m n := by
  simp only [compare, compareOfLessAndEq, Int.ofNat_lt, Int.ofNat_inj]

/-- **Doubles are compared by their places.** -/
theorem compare_eq_comparePlaces (x y : UnpackedFloat) :
    x.compare y = (rank x).bind fun a => (rank y).map fun b => comparePlaces a b := by
  rcases x with s | _ | s | ⟨s, m, e, hm⟩ <;> rcases y with t | _ | t | ⟨t, n, f, hn⟩ <;>
    (try cases s) <;> (try cases t) <;> (try rfl)
  · show some ((compare e f).then (compare m n)).swap =
      some ((compare (-1) (-1)).then ((compare (-e) (-f)).then (compare (-(m : Int)) (-(n : Int)))))
    rw [compare_neg e f, compare_neg m n, compare_natCast, Ordering.swap_then]
    rfl
  · show some ((compare e f).then (compare m n)) = some (comparePlaces (1, e, m) (1, f, n))
    rw [comparePlaces, compare_natCast]
    rfl

/-- The place of a number of seconds. -/
def place (a : Seconds) : Option (Int × Int × Int) := rank a.value.toModel.unpack

theorem le_iff_place {a b : Seconds} :
    a ≤ b ↔ ∃ x y, a.place = some x ∧ b.place = some y ∧ (comparePlaces x y).isLE = true := by
  have hle : a ≤ b ↔ a.value.toModel.unpack.le b.value.toModel.unpack = true := by
    show decide (a.value.toModel ≤ b.value.toModel) = true ↔ _
    rw [decide_eq_true_eq]
    exact Iff.rfl
  rw [hle, UnpackedFloat.le, compare_eq_comparePlaces, place, place]
  cases rank a.value.toModel.unpack <;> cases rank b.value.toModel.unpack <;> simp

theorem lt_iff_place {a b : Seconds} :
    a < b ↔ ∃ x y, a.place = some x ∧ b.place = some y ∧ comparePlaces x y = .lt := by
  have hlt : a < b ↔ a.value.toModel.unpack.lt b.value.toModel.unpack = true := by
    show decide (a.value.toModel < b.value.toModel) = true ↔ _
    rw [decide_eq_true_eq]
    exact Iff.rfl
  rw [hlt, UnpackedFloat.lt, compare_eq_comparePlaces, place, place]
  cases rank a.value.toModel.unpack <;> cases rank b.value.toModel.unpack <;> simp

/-- **Numbers of seconds are ordered as far as they are defined.** -/
theorem timeLaws_seconds : Clock.TimeLaws Seconds := by
  constructor
  · intro s t
    simp only [le_iff_place, lt_iff_place, isLE_comparePlaces, comparePlaces_eq_lt]
    cases s.place with
    | none => simp
    | some x =>
      cases t.place with
      | none => simp
      | some y =>
        simp only [Option.some.injEq, exists_and_left, exists_eq_left']
        omega
  · intro s t u hst htu
    rw [le_iff_place] at hst htu ⊢
    obtain ⟨x, y, hx, hy, hxy⟩ := hst
    obtain ⟨y', z, hy', hz, hyz⟩ := htu
    obtain rfl : y = y' := Option.some.inj (hy.symm.trans hy')
    rw [isLE_comparePlaces] at hxy hyz
    refine ⟨x, z, hx, hz, ?_⟩
    rw [isLE_comparePlaces]
    omega
  · intro s t hs ht
    rw [le_iff_place] at hs ht
    obtain ⟨x, _, hx, _⟩ := hs
    obtain ⟨y, _, hy, _⟩ := ht
    simp only [le_iff_place, hx, hy, isLE_comparePlaces, Option.some.injEq, exists_and_left,
      exists_eq_left']
    omega
  · intro s t hst
    rw [le_iff_place] at hst
    obtain ⟨x, y, hx, hy, _⟩ := hst
    have hself (z : Int × Int × Int) : (comparePlaces z z).isLE = true := by
      rw [isLE_comparePlaces]
      omega
    exact ⟨le_iff_place.mpr ⟨x, x, hx, hx, hself x⟩, le_iff_place.mpr ⟨y, y, hy, hy, hself y⟩⟩

end Ls8.Seconds
