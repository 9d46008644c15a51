/-!
# Sets of characters as flip tables

A set of code points is written as the ascending list of the points at which
membership flips: the first point that is in, the next that is out, and so on.
A point is in the set if an odd number of flips is at or below it.
-/

namespace Highlight.Unicode

abbrev FlipTable := Array Nat

/-- The number of flips at or below `n` among those numbered `lo` to `hi - 1`,
plus `lo`; the table is ascending. -/
def FlipTable.rank (t : FlipTable) (n lo hi : Nat) : Nat :=
  if lo < hi then
    let mid := (lo + hi) / 2
    if t.getD mid 0 ≤ n then t.rank n (mid + 1) hi else t.rank n lo mid
  else lo
termination_by hi - lo

def FlipTable.contains (t : FlipTable) (n : Nat) : Bool :=
  t.rank n 0 t.size % 2 == 1

end Highlight.Unicode
