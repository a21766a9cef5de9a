import Ls8.Clock.Heap.Contents

/-
  The order of a heap.

  The statements need a test that puts all items into an order: coming before is not mutual, and not
  coming before is transitive.

  Main statements: pushing and popping keep a heap (`isHeap_push`, `isHeap_of_pop?`), and no item
  that is left comes before the one that was popped (`before_eq_false_of_pop?`).
-/

namespace Ls8.Clock.Heap

variable {α : Type}

/-! ## Heaps -/

/-- No item lies below one that it comes before. -/
def IsHeap (before : α → α → Bool) : Heap α → Prop
  | empty => True
  | node l x r =>
    (∀ y ∈ l.toList ++ r.toList, before y x = false) ∧ IsHeap before l ∧ IsHeap before r

/-- A test that puts all items into an order, in which different items may be equal. -/
structure Orders (before : α → α → Bool) : Prop where
  asymm : ∀ {a b : α}, before a b = true → before b a = false
  /-- Not coming before is transitive. -/
  trans : ∀ {a b c : α}, before b a = false → before c b = false → before c a = false

theorem isHeap_node {before : α → α → Bool} {l r : Heap α} {x : α} (hl : l.IsHeap before)
    (hr : r.IsHeap before) (hxl : ∀ z ∈ l.toList, before z x = false)
    (hxr : ∀ z ∈ r.toList, before z x = false) : (node l x r).IsHeap before :=
  ⟨fun z hz => (List.mem_append.mp hz).elim (hxl z) (hxr z), hl, hr⟩

/-! ## Rising items -/

/-- What is known of an item that is being put among others: the tree is a heap again, and if the
    item has settled there is one among the others that it does not come before. -/
structure RisesAmong (before : α → α → Bool) (x : α) (others : List α) (s : Rising α) : Prop where
  perm : (s.place x).toList.Perm (x :: others)
  isHeap : (s.place x).IsHeap before
  settled : ∀ h, s = .settled h → ∃ t ∈ others, before x t = false

/-- Whether it has risen past `y`, the item does not come before anything below it. -/
theorem RisesAmong.onLeft {before : α → α → Bool} (ho : Orders before) {x y : α} {r : Heap α}
    {others : List α} {s : Rising α} (hs : RisesAmong before x others s)
    (hy : ∀ z ∈ others, before z y = false) (hr : r.IsHeap before)
    (hyr : ∀ z ∈ r.toList, before z y = false) :
    RisesAmong before x (y :: (others ++ r.toList)) (s.onLeft before x y r) where
  perm := (toList_onLeft before x y r s).trans
    ((List.Perm.cons y (hs.perm.append_right r.toList)).trans (List.Perm.swap _ _ _))
  isHeap := by
    cases s with
    | risen a b =>
      have hab : (a.toList ++ b.toList).Perm others := hs.perm.cons_inv
      obtain ⟨hx, ha, hb⟩ := hs.isHeap
      have hyab : ∀ z ∈ a.toList ++ b.toList, before z y = false :=
        fun z hz => hy z (hab.mem_iff.mp hz)
      rw [Rising.onLeft]
      split
      · -- the item rises past `y`
        rename_i hxy
        refine isHeap_node ⟨hyab, ha, hb⟩ hr (fun z hz => ?_)
          fun z hz => ho.trans (ho.asymm hxy) (hyr z hz)
        rcases List.mem_cons.mp hz with rfl | hz
        · exact ho.asymm hxy
        · exact hx z hz
      · -- the item stays below `y`
        rename_i hxy
        refine isHeap_node ⟨hx, ha, hb⟩ hr (fun z hz => ?_) hyr
        rcases List.mem_cons.mp hz with rfl | hz
        · exact eq_false_of_ne_true hxy
        · exact hyab z hz
    | settled l =>
      obtain ⟨t, ht, hxt⟩ := hs.settled l rfl
      refine isHeap_node hs.isHeap hr (fun z hz => ?_) hyr
      rcases List.mem_cons.mp (hs.perm.mem_iff.mp hz) with rfl | hz
      · exact ho.trans (hy t ht) hxt
      · exact hy z hz
  settled := by
    intro h hh
    cases s with
    | risen a b =>
      rw [Rising.onLeft] at hh
      split at hh
      · cases hh
      · rename_i hxy
        exact ⟨y, List.mem_cons_self, eq_false_of_ne_true hxy⟩
    | settled l =>
      obtain ⟨t, ht, hxt⟩ := hs.settled l rfl
      exact ⟨t, List.mem_cons_of_mem _ (List.mem_append_left _ ht), hxt⟩

/-- The same on the right. -/
theorem RisesAmong.onRight {before : α → α → Bool} (ho : Orders before) {x y : α} {l : Heap α}
    {others : List α} {s : Rising α} (hs : RisesAmong before x others s)
    (hy : ∀ z ∈ others, before z y = false) (hl : l.IsHeap before)
    (hyl : ∀ z ∈ l.toList, before z y = false) :
    RisesAmong before x (y :: (l.toList ++ others)) (s.onRight before x l y) where
  perm := (toList_onRight before x l y s).trans
    ((List.Perm.cons y ((hs.perm.append_left l.toList).trans List.perm_middle)).trans
      (List.Perm.swap _ _ _))
  isHeap := by
    cases s with
    | risen a b =>
      have hab : (a.toList ++ b.toList).Perm others := hs.perm.cons_inv
      obtain ⟨hx, ha, hb⟩ := hs.isHeap
      have hyab : ∀ z ∈ a.toList ++ b.toList, before z y = false :=
        fun z hz => hy z (hab.mem_iff.mp hz)
      rw [Rising.onRight]
      split
      · -- the item rises past `y`
        rename_i hxy
        refine isHeap_node hl ⟨hyab, ha, hb⟩ (fun z hz => ho.trans (ho.asymm hxy) (hyl z hz))
          fun z hz => ?_
        rcases List.mem_cons.mp hz with rfl | hz
        · exact ho.asymm hxy
        · exact hx z hz
      · -- the item stays below `y`
        rename_i hxy
        refine isHeap_node hl ⟨hx, ha, hb⟩ hyl fun z hz => ?_
        rcases List.mem_cons.mp hz with rfl | hz
        · exact eq_false_of_ne_true hxy
        · exact hyab z hz
    | settled r =>
      obtain ⟨t, ht, hxt⟩ := hs.settled r rfl
      refine isHeap_node hl hs.isHeap hyl fun z hz => ?_
      rcases List.mem_cons.mp (hs.perm.mem_iff.mp hz) with rfl | hz
      · exact ho.trans (hy t ht) hxt
      · exact hy z hz
  settled := by
    intro h hh
    cases s with
    | risen a b =>
      rw [Rising.onRight] at hh
      split at hh
      · cases hh
      · rename_i hxy
        exact ⟨y, List.mem_cons_self, eq_false_of_ne_true hxy⟩
    | settled r =>
      obtain ⟨t, ht, hxt⟩ := hs.settled r rfl
      exact ⟨t, List.mem_cons_of_mem _ (List.mem_append_right _ ht), hxt⟩

/-- An item among no others. -/
theorem risesAmong_nil (before : α → α → Bool) (x : α) :
    RisesAmong before x [] (.risen empty empty) where
  perm := List.Perm.refl _
  isHeap := ⟨fun _ hz => absurd hz List.not_mem_nil, trivial, trivial⟩
  settled := nofun

theorem risesAmong_putAt {before : α → α → Bool} (ho : Orders before) (x : α) (way : List Bool)
    {h : Heap α} (hh : h.IsHeap before) : RisesAmong before x h.toList (putAt before x way h) := by
  induction h generalizing way with
  | empty => exact risesAmong_nil before x
  | node l y r ihl ihr =>
    obtain ⟨hy, hl, hr⟩ := hh
    have hyl := fun z hz => hy z (List.mem_append_left r.toList hz)
    have hyr := fun z hz => hy z (List.mem_append_right l.toList hz)
    rw [putAt]
    split
    · exact (ihr way.tail hr).onRight ho hyr hl hyl
    · exact (ihl way.tail hl).onLeft ho hyl hr hyr

/-! ## Operations -/

/-- **Pushing keeps a heap.** -/
theorem isHeap_push {before : α → α → Bool} (ho : Orders before) (x : α) {h : Heap α}
    (hh : h.IsHeap before) : (h.push before x).IsHeap before :=
  (risesAmong_putAt ho x _ hh).isHeap

theorem isHeap_takeAt {before : α → α → Bool} {way : List Bool} {h h' : Heap α} {z : α}
    (hh : h.IsHeap before) (ht : takeAt way h = some (z, h')) : h'.IsHeap before := by
  induction h generalizing way h' with
  | empty => simp [takeAt] at ht
  | node l y r ihl ihr =>
    obtain ⟨hy, hl, hr⟩ := hh
    have hyl := fun w hw => hy w (List.mem_append_left r.toList hw)
    have hyr := fun w hw => hy w (List.mem_append_right l.toList hw)
    rcases takeAt_node ht with ⟨l', ht', rfl⟩ | ⟨r', ht', rfl⟩ | ⟨rfl, rfl, rfl, rfl⟩
    · exact isHeap_node (ihl hl ht') hr
        (fun w hw => hyl w ((toList_takeAt ht').mem_iff.mp (List.mem_cons_of_mem z hw))) hyr
    · exact isHeap_node hl (ihr hr ht') hyl
        fun w hw => hyr w ((toList_takeAt ht').mem_iff.mp (List.mem_cons_of_mem z hw))
    · trivial

/-- No item comes before the top of a heap. -/
theorem before_top?_eq_false {before : α → α → Bool} {h : Heap α} {t : α} (hh : h.IsHeap before)
    (ht : h.top? = some t) : ∀ z ∈ h.toList.tail, before z t = false := by
  cases h with
  | empty => simp [top?] at ht
  | node l x r =>
    simp only [top?, Option.some.injEq] at ht
    subst ht
    exact hh.1

theorem risesAmong_refill {before : α → α → Bool} (ho : Orders before) (x : α) {h : Heap α}
    (hh : h.IsHeap before) : RisesAmong before x h.toList.tail (refill before x h) := by
  induction h with
  | empty => exact risesAmong_nil before x
  | node l y r ihl ihr =>
    obtain ⟨_, hl, hr⟩ := hh
    -- the part whose top moves up, and the other one
    have left {a : α} (ha : l.top? = some a) (har : ∀ z ∈ r.toList, before z a = false) :
        RisesAmong before x (node l y r).toList.tail ((refill before x l).onLeft before x a r) := by
      have := (ihl hl).onLeft ho (before_top?_eq_false hl ha) hr har
      rwa [← List.cons_append, ← toList_of_top? ha] at this
    have right {b : α} (hb : r.top? = some b) (hbl : ∀ z ∈ l.toList, before z b = false) :
        RisesAmong before x (node l y r).toList.tail ((refill before x r).onRight before x l b) := by
      have h1 := (ihr hr).onRight ho (before_top?_eq_false hr hb) hl hbl
      have h2 : (b :: (l.toList ++ r.toList.tail)).Perm (node l y r).toList.tail := by
        rw [toList, List.tail_cons]
        conv => rhs; rw [toList_of_top? hb]
        exact List.perm_middle.symm
      refine ⟨h1.perm.trans (h2.cons x), h1.isHeap, fun h' hh' => ?_⟩
      obtain ⟨t, ht, hxt⟩ := h1.settled h' hh'
      exact ⟨t, h2.mem_iff.mp ht, hxt⟩
    rw [refill]
    split
    · rename_i h1 h2
      rw [eq_empty_of_top? h1, eq_empty_of_top? h2]
      exact risesAmong_nil before x
    · rename_i h1 h2
      refine left h1 ?_
      rw [eq_empty_of_top? h2]
      exact fun z hz => absurd hz List.not_mem_nil
    · rename_i h1 h2
      refine right h2 ?_
      rw [eq_empty_of_top? h1]
      exact fun z hz => absurd hz List.not_mem_nil
    · rename_i a b h1 h2
      split
      · rename_i hab
        refine left h1 fun z hz => ?_
        rw [toList_of_top? h2] at hz
        rcases List.mem_cons.mp hz with rfl | hz
        · exact ho.asymm hab
        · exact ho.trans (ho.asymm hab) (before_top?_eq_false hr h2 z hz)
      · rename_i hab
        have hab := eq_false_of_ne_true hab
        refine right h2 fun z hz => ?_
        rw [toList_of_top? h1] at hz
        rcases List.mem_cons.mp hz with rfl | hz
        · exact hab
        · exact ho.trans hab (before_top?_eq_false hl h1 z hz)

/-- **Popping keeps a heap.** -/
theorem isHeap_of_pop? {before : α → α → Bool} (ho : Orders before) {h rest : Heap α} {x : α}
    (hh : h.IsHeap before) (hp : h.pop? before = some (x, rest)) : rest.IsHeap before := by
  rw [pop?, Option.map_eq_some_iff] at hp
  obtain ⟨⟨last, h'⟩, ht, he⟩ := hp
  have hh' := isHeap_takeAt hh ht
  dsimp only at he
  split at he
  · rw [← (Prod.mk.inj he).2]
    exact hh'
  · rw [← (Prod.mk.inj he).2]
    exact (risesAmong_refill ho last hh').isHeap

/-- **The least item is popped:** no other one comes before it. -/
theorem before_eq_false_of_pop? {before : α → α → Bool} {h rest : Heap α} {x : α}
    (hh : h.IsHeap before) (hp : h.pop? before = some (x, rest)) :
    ∀ z ∈ rest.toList, before z x = false := by
  have htop := top?_of_pop? hp
  have hperm := toList_of_pop? hp
  rw [toList_of_top? htop] at hperm
  intro z hz
  exact before_top?_eq_false hh htop z (hperm.cons_inv.mem_iff.mp hz)

end Ls8.Clock.Heap
