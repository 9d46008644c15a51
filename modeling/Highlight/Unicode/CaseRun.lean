/-!
# Runs of characters with the same case shift

In a run, each code point from the first to the last in equal steps maps to
the point a fixed distance away.
-/

namespace Highlight.Unicode

structure Run where
  first : Nat
  last : Nat
  step : Nat
  shift : Int

def Run.covers (r : Run) (n : Nat) : Bool :=
  r.first ≤ n && n ≤ r.last && (n - r.first) % r.step == 0

/-- The character that the run maps to `c`. -/
def Run.preimage (r : Run) (c : Char) : Option Char :=
  let n := ((c.toNat : Int) - r.shift).toNat
  if r.covers n then some (Char.ofNat n) else none

/-- The image of `c`; a character that no run covers stays as it is. -/
def mapRuns (runs : List Run) (c : Char) : Char :=
  match runs.find? (·.covers c.toNat) with
  | some r => Char.ofNat ((c.toNat : Int) + r.shift).toNat
  | none => c

end Highlight.Unicode
