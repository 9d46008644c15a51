import Highlight.Text.Lines

/-!
# Positions and offsets

A position counts characters, an offset counts the bytes of UTF-8.
-/

namespace Highlight.Text

/-- The offset of the position `i`. -/
def offsetAt : List Char → (i : Nat) → Nat
  | c :: cs, i + 1 => c.utf8Size + offsetAt cs i
  | _, _ => 0

theorem offsetAt_eq (cs : List Char) (i : Nat) : offsetAt cs i = byteCount (cs.take i) := by
  induction cs generalizing i with
  | nil => simp [offsetAt, byteCount]
  | cons c cs ih =>
    cases i with
    | zero => simp [offsetAt, byteCount]
    | succ i => simp [offsetAt, byteCount, ih]

/-- The position of an offset, or the next one where it lies inside a character. -/
def positionAt : List Char → (offset : Nat) → Nat
  | [], _ => 0
  | c :: cs, offset => if offset = 0 then 0 else positionAt cs (offset - c.utf8Size) + 1

end Highlight.Text
