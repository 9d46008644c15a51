import Highlight.Span
import Highlight.Text.Lines

/-!
# Where lines start

Columns count from the start of a line and tokens from the start of the text.
The starts of the lines, in the text that joins them, relate the two.
-/

namespace Highlight

structure LineStarts where
  starts : List Nat
  deriving DecidableEq, Repr

namespace LineStarts

/-- Starts of lines of which the first starts at `offset`. -/
def startsFrom (offset : Nat) : List String → List Nat
  | [] => []
  | l :: ls => offset :: startsFrom (offset + l.utf8ByteSize + Text.lineEnd.utf8Size) ls

def ofLines (ls : List String) : LineStarts :=
  ⟨startsFrom 0 ls⟩

/-- The start of the line with this number, counted from 0. -/
def start? (s : LineStarts) (line : Nat) : Option Nat :=
  s.starts[line]?

/-- The place in the text of columns of a line. -/
def absolute? (s : LineStarts) (line : Nat) (columns : Span) : Option Span :=
  (s.start? line).map columns.shift

end LineStarts

end Highlight
