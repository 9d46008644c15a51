/-!
# Elapsed time
-/

namespace Highlight.Cli

/-- A number of hundredths with two decimals. -/
def hundredths (n : Nat) : String :=
  s!"{n / 100}.{n % 100 / 10}{n % 10}"

/-- A number of nanoseconds in the largest unit of which there is at least one. -/
def elapsedText (nanoseconds : Nat) : String :=
  let inUnits (unit : Nat) : String := hundredths ((nanoseconds * 100 + unit / 2) / unit)
  if 1000000000 ≤ nanoseconds then inUnits 1000000000 ++ "s"
  else if 1000000 ≤ nanoseconds then inUnits 1000000 ++ "ms"
  else if 1000 ≤ nanoseconds then inUnits 1000 ++ "µs"
  else inUnits 1 ++ "ns"

end Highlight.Cli
