/-
  Heaps: bags of items from which the least one can be taken.

  A heap is a binary tree in which no item lies below one that it comes before.  Its levels are
  filled one after the other, each from the left; a new item starts at the next free place and rises
  past every item that it comes before.  When the first item is taken out, the last one is taken
  from its place as well: the first place is filled from below by the lesser of two items, again and
  again down to the lowest level, and the last item rises from the place that is left.

  Which of two items comes first is decided by a test that is given to each operation.  The places
  of the items depend on nothing but the answers of that test, so what a heap does is determined
  also where the test orders some items only.
-/

namespace Ls8.Clock

/-- A binary tree of items. -/
inductive Heap (α : Type) where
  | empty
  | node (left : Heap α) (top : α) (right : Heap α)
  deriving Repr

namespace Heap

variable {α : Type}

instance : Inhabited (Heap α) := ⟨.empty⟩

/-- All items, the top one first. -/
def toList : Heap α → List α
  | empty => []
  | node l x r => x :: (l.toList ++ r.toList)

/-- How many items there are. -/
def size : Heap α → Nat
  | empty => 0
  | node l _ r => l.size + r.size + 1

/-- Whether there are none. -/
def isEmpty : Heap α → Bool
  | empty => true
  | node .. => false

/-- The first item. -/
def top? : Heap α → Option α
  | empty => none
  | node _ x _ => some x

/-! ## Places -/

/-- The way from the top to a place, counted from zero through the levels; `true` is to the right.
    The places below `n` are `2 * n + 1` and `2 * n + 2`. -/
def path (n : Nat) : List Bool := go n n []
where
  /-- Follows the way up; the number of steps is at most `fuel`. -/
  go : Nat → Nat → List Bool → List Bool
    | 0, _, way => way
    | fuel + 1, n, way => if n = 0 then way else go fuel ((n - 1) / 2) ((n % 2 == 0) :: way)

/-- The item at the end of a way. -/
def get? : List Bool → Heap α → Option α
  | _, empty => none
  | [], node _ x _ => some x
  | false :: way, node l _ _ => get? way l
  | true :: way, node _ _ r => get? way r

/-- The items in the order of their places. -/
def levels (h : Heap α) : List α := (List.range h.size).filterMap fun n => h.get? (path n)

/-! ## Rising -/

/-- A tree into which an item is being put: either it has risen to the top of the tree, above two
    others, or it has found its place further down. -/
inductive Rising (α : Type) where
  | risen (left right : Heap α)
  | settled (h : Heap α)

/-- The tree with the item in it. -/
def Rising.place (x : α) : Rising α → Heap α
  | risen l r => node l x r
  | settled h => h

/-- The tree whose left part the item was put into, with `y` at the top: the item rises past `y` if
    it comes before it. -/
def Rising.onLeft (before : α → α → Bool) (x y : α) (r : Heap α) : Rising α → Rising α
  | risen a b =>
    if before x y then .risen (node a y b) r else .settled (node (node a x b) y r)
  | settled l => .settled (node l y r)

/-- The tree whose right part the item was put into, with `y` at the top. -/
def Rising.onRight (before : α → α → Bool) (x : α) (l : Heap α) (y : α) : Rising α → Rising α
  | risen a b =>
    if before x y then .risen l (node a y b) else .settled (node l y (node a x b))
  | settled r => .settled (node l y r)

/-! ## Operations -/

/-- Puts an item at the end of a way. -/
def putAt (before : α → α → Bool) (x : α) : List Bool → Heap α → Rising α
  | _, empty => .risen empty empty
  | way, node l y r =>
    if way.headD false then (putAt before x way.tail r).onRight before x l y
    else (putAt before x way.tail l).onLeft before x y r

/-- **Adds an item.** -/
def push (before : α → α → Bool) (x : α) (h : Heap α) : Heap α :=
  (putAt before x (path h.size) h).place x

/-- Takes out the item at the end of a way, which is at the end of a branch. -/
def takeAt : List Bool → Heap α → Option (α × Heap α)
  | _, empty => none
  | way, node l y r =>
    let fromLeft := (takeAt way.tail l).map fun (z, l) => (z, node l y r)
    let fromRight := (takeAt way.tail r).map fun (z, r) => (z, node l y r)
    some (((if way.headD false then fromRight.or fromLeft else fromLeft.or fromRight)).getD
      (y, empty))

/-- Fills the place at the top, whose item has gone, and puts `x` where a place is left. -/
def refill (before : α → α → Bool) (x : α) : Heap α → Rising α
  | empty => .risen empty empty
  | node l _ r =>
    match l.top?, r.top? with
    | none, none => .risen empty empty
    | some a, none => (refill before x l).onLeft before x a r
    | none, some b => (refill before x r).onRight before x l b
    | some a, some b =>
      if before a b then (refill before x l).onLeft before x a r
      else (refill before x r).onRight before x l b

/-- **Takes the first item out.** -/
def pop? (before : α → α → Bool) (h : Heap α) : Option (α × Heap α) :=
  (takeAt (path (h.size - 1)) h).map fun (last, rest) =>
    match rest.top? with
    | none => (last, rest)
    | some first => (first, (refill before last rest).place last)

example : path 5 = [true, false] := by decide
example : ((((empty.push Nat.blt 3).push Nat.blt 1).push Nat.blt 2).pop? Nat.blt).map
    (fun p => (p.1, p.2.levels)) = some (1, [2, 3]) := by decide

end Heap

end Ls8.Clock
