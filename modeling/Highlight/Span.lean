/-!
# Spans
-/

namespace Highlight

/-- The positions from `start` up to but not including `stop`. -/
structure Span where
  start : Nat
  stop : Nat
  deriving DecidableEq, Repr, Inhabited

/-- The span moved right by `offset`. -/
def Span.shift (offset : Nat) (s : Span) : Span :=
  ⟨offset + s.start, offset + s.stop⟩

/-- Whether the span of a nonempty token and the span asked about share a
position; touching ends share none. -/
def Span.overlaps (s t : Span) : Bool :=
  s.start < t.stop && t.start < s.stop

end Highlight
