import Ls8.Clock.Heap.Basic

/-
  What is in a heap.

  Main statements: pushing adds one item and loses none (`toList_push`), popping takes the item at
  the top and loses no other one (`toList_of_pop?`, `top?_of_pop?`), and something can be popped
  unless the heap is empty (`pop?_eq_none_iff`).
-/

namespace Ls8.Clock.Heap

variable {α : Type}

/-! ## Putting an item in -/

/-- What a rising item makes of the left part is kept. -/
theorem toList_onLeft (before : α → α → Bool) (x y : α) (r : Heap α) (s : Rising α) :
    ((s.onLeft before x y r).place x).toList.Perm (y :: ((s.place x).toList ++ r.toList)) := by
  cases s with
  | risen a b =>
    rw [Rising.onLeft]
    split
    · exact List.Perm.swap _ _ _
    · exact List.Perm.refl _
  | settled l => exact List.Perm.refl _

/-- What a rising item makes of the right part is kept. -/
theorem toList_onRight (before : α → α → Bool) (x : α) (l : Heap α) (y : α) (s : Rising α) :
    ((s.onRight before x l y).place x).toList.Perm (y :: (l.toList ++ (s.place x).toList)) := by
  cases s with
  | risen a b =>
    rw [Rising.onRight]
    split
    · -- the item rises: it changes places with `y`
      simp only [Rising.place, toList]
      refine (List.Perm.cons x List.perm_middle).trans ((List.Perm.swap _ _ _).trans ?_)
      exact List.Perm.cons y List.perm_middle.symm
    · exact List.Perm.refl _
  | settled r => exact List.Perm.refl _

theorem toList_putAt (before : α → α → Bool) (x : α) (way : List Bool) (h : Heap α) :
    ((putAt before x way h).place x).toList.Perm (x :: h.toList) := by
  induction h generalizing way with
  | empty => simp [putAt, Rising.place, toList]
  | node l y r ihl ihr =>
    rw [putAt]
    split
    · refine (toList_onRight before x l y _).trans ?_
      refine (List.Perm.cons y ((ihr way.tail).append_left l.toList)).trans ?_
      refine (List.Perm.cons y List.perm_middle).trans ?_
      exact List.Perm.swap _ _ _
    · refine (toList_onLeft before x y r _).trans ?_
      refine (List.Perm.cons y ((ihl way.tail).append_right r.toList)).trans ?_
      exact List.Perm.swap _ _ _

/-- **Pushing adds one item** and loses none. -/
theorem toList_push (before : α → α → Bool) (x : α) (h : Heap α) :
    (h.push before x).toList.Perm (x :: h.toList) :=
  toList_putAt before x _ h

/-! ## Taking an item out -/

/-- There is nothing to take exactly if there are no items. -/
theorem takeAt_eq_none_iff {way : List Bool} {h : Heap α} : takeAt way h = none ↔ h = empty := by
  cases h <;> simp [takeAt]

/-- The ways to take an item out of a tree: from one of its parts, or its top if both are empty. -/
theorem takeAt_node {way : List Bool} {l r : Heap α} {y z : α} {h : Heap α}
    (ht : takeAt way (node l y r) = some (z, h)) :
    (∃ l', takeAt way.tail l = some (z, l') ∧ h = node l' y r) ∨
      (∃ r', takeAt way.tail r = some (z, r') ∧ h = node l y r') ∨
      (l = empty ∧ r = empty ∧ z = y ∧ h = empty) := by
  rw [takeAt] at ht
  cases hl : takeAt way.tail l with
  | none =>
    cases hr : takeAt way.tail r with
    | none =>
      simp only [hl, hr, Option.map_none, Option.or_none, ite_self, Option.getD_none,
        Option.some.injEq, Prod.mk.injEq] at ht
      exact .inr (.inr ⟨takeAt_eq_none_iff.mp hl, takeAt_eq_none_iff.mp hr, ht.1.symm, ht.2.symm⟩)
    | some q =>
      obtain ⟨w, r'⟩ := q
      simp only [hl, hr, Option.map_none, Option.map_some, Option.or_none, Option.none_or, ite_self,
        Option.getD_some, Option.some.injEq, Prod.mk.injEq] at ht
      exact .inr (.inl ⟨r', by rw [ht.1], ht.2.symm⟩)
  | some p =>
    obtain ⟨v, l'⟩ := p
    cases hr : takeAt way.tail r with
    | none =>
      simp only [hl, hr, Option.map_none, Option.map_some, Option.or_none, Option.none_or, ite_self,
        Option.getD_some, Option.some.injEq, Prod.mk.injEq] at ht
      exact .inl ⟨l', by rw [ht.1], ht.2.symm⟩
    | some q =>
      obtain ⟨w, r'⟩ := q
      simp only [hl, hr, Option.map_some, Option.some_or] at ht
      split at ht
      · simp only [Option.getD_some, Option.some.injEq, Prod.mk.injEq] at ht
        exact .inr (.inl ⟨r', by rw [ht.1], ht.2.symm⟩)
      · simp only [Option.getD_some, Option.some.injEq, Prod.mk.injEq] at ht
        exact .inl ⟨l', by rw [ht.1], ht.2.symm⟩

theorem toList_takeAt {way : List Bool} {h h' : Heap α} {z : α}
    (ht : takeAt way h = some (z, h')) : (z :: h'.toList).Perm h.toList := by
  induction h generalizing way h' with
  | empty => simp [takeAt] at ht
  | node l y r ihl ihr =>
    rcases takeAt_node ht with ⟨l', hl, rfl⟩ | ⟨r', hr, rfl⟩ | ⟨rfl, rfl, rfl, rfl⟩
    · refine (List.Perm.swap _ _ _).trans (List.Perm.cons y ?_)
      exact (ihl hl).append_right r.toList
    · refine (List.Perm.swap _ _ _).trans (List.Perm.cons y ?_)
      exact List.perm_middle.symm.trans ((ihr hr).append_left l.toList)
    · exact List.Perm.refl _

/-- A tree in which items are left still has its top. -/
theorem top?_of_takeAt {way : List Bool} {h h' : Heap α} {z t : α}
    (ht : takeAt way h = some (z, h')) (htop : h'.top? = some t) : h.top? = some t := by
  cases h with
  | empty => simp [takeAt] at ht
  | node l y r =>
    rcases takeAt_node ht with ⟨l', hl, rfl⟩ | ⟨r', hr, rfl⟩ | ⟨rfl, rfl, rfl, rfl⟩
    · exact htop
    · exact htop
    · simp [top?] at htop

theorem toList_of_top? {h : Heap α} {t : α} (ht : h.top? = some t) :
    h.toList = t :: h.toList.tail := by
  cases h with
  | empty => simp [top?] at ht
  | node l x r =>
    simp only [top?, Option.some.injEq] at ht
    simp [toList, ht]

theorem eq_empty_of_top? {h : Heap α} (ht : h.top? = none) : h = empty := by
  cases h with
  | empty => rfl
  | node l x r => simp [top?] at ht

theorem toList_refill (before : α → α → Bool) (x : α) (h : Heap α) :
    ((refill before x h).place x).toList.Perm (x :: h.toList.tail) := by
  induction h with
  | empty => simp [refill, Rising.place, toList]
  | node l y r ihl ihr =>
    -- the part that is filled, and the other one
    have left {a : α} (ha : l.top? = some a) :
        (((refill before x l).onLeft before x a r).place x).toList.Perm
          (x :: (node l y r).toList.tail) := by
      refine (toList_onLeft before x a r _).trans ?_
      refine (List.Perm.cons a (ihl.append_right r.toList)).trans ?_
      refine (List.Perm.swap _ _ _).trans (List.Perm.cons x ?_)
      rw [toList, List.tail_cons]
      conv => rhs; rw [toList_of_top? ha]
      exact List.Perm.refl _
    have right {b : α} (hb : r.top? = some b) :
        (((refill before x r).onRight before x l b).place x).toList.Perm
          (x :: (node l y r).toList.tail) := by
      refine (toList_onRight before x l b _).trans ?_
      refine (List.Perm.cons b (ihr.append_left l.toList)).trans ?_
      refine (List.Perm.cons b List.perm_middle).trans ?_
      refine (List.Perm.swap _ _ _).trans (List.Perm.cons x ?_)
      rw [toList, List.tail_cons]
      conv => rhs; rw [toList_of_top? hb]
      exact List.perm_middle.symm
    rw [refill]
    split
    · rename_i hl hr
      simp [eq_empty_of_top? hl, eq_empty_of_top? hr, Rising.place, toList]
    · rename_i hl _
      exact left hl
    · rename_i _ hr
      exact right hr
    · rename_i hl hr
      split
      · exact left hl
      · exact right hr

/-- **Popping takes one item** and loses no other one. -/
theorem toList_of_pop? {before : α → α → Bool} {h rest : Heap α} {x : α}
    (hp : h.pop? before = some (x, rest)) : (x :: rest.toList).Perm h.toList := by
  rw [pop?, Option.map_eq_some_iff] at hp
  obtain ⟨⟨last, h'⟩, ht, he⟩ := hp
  have hperm := toList_takeAt ht
  dsimp only at he
  split at he
  · obtain ⟨rfl, rfl⟩ := Prod.mk.inj he
    exact hperm
  · rename_i first hf
    obtain ⟨rfl, rfl⟩ := Prod.mk.inj he
    refine (List.Perm.cons first (toList_refill before last h')).trans ?_
    rw [toList_of_top? hf] at hperm
    exact (List.Perm.swap _ _ _).trans hperm

/-- There is nothing to pop exactly if there are no items. -/
theorem pop?_eq_none_iff {before : α → α → Bool} {h : Heap α} :
    h.pop? before = none ↔ h = empty := by
  rw [pop?, Option.map_eq_none_iff, takeAt_eq_none_iff]

/-- What is popped is the first item. -/
theorem top?_of_pop? {before : α → α → Bool} {h rest : Heap α} {x : α}
    (hp : h.pop? before = some (x, rest)) : h.top? = some x := by
  rw [pop?, Option.map_eq_some_iff] at hp
  obtain ⟨⟨last, h'⟩, ht, he⟩ := hp
  dsimp only at he
  split at he
  · rename_i hn
    obtain ⟨rfl, rfl⟩ := Prod.mk.inj he
    have hperm := toList_takeAt ht
    rw [eq_empty_of_top? hn] at hperm
    cases h with
    | empty => simp [takeAt] at ht
    | node l y r =>
      have := List.perm_singleton.mp hperm.symm
      simp only [toList, List.cons.injEq] at this
      simp [top?, this.1]
  · rename_i first hf
    obtain ⟨rfl, rfl⟩ := Prod.mk.inj he
    exact top?_of_takeAt ht hf

end Ls8.Clock.Heap
