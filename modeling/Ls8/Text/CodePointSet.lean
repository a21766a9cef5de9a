/-
  Sets of characters given by a table.

  Character classes of the Unicode standard are unions of ranges.  A set is written as the
  ascending list of the code points where membership changes: the set starts at the first edge,
  stops at the second, starts again at the third, and so on.  Then a character belongs to the set
  exactly if an odd number of edges lie at or before it.
-/

namespace Ls8.Text

/-- A set of characters, written as the code points at which membership changes. -/
structure CodePointSet where
  edges : List Nat

namespace CodePointSet

/-- A character is in the set if an odd number of edges lie at or before it. -/
def contains (s : CodePointSet) (c : Char) : Bool :=
  s.edges.countP (fun edge => edge ≤ c.toNat) % 2 == 1

end CodePointSet

end Ls8.Text
