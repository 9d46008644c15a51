/-!
# Blank characters

The White_Space property, which trimming, word splitting and the space class
of patterns all go by.
-/

namespace Highlight.Unicode

/-- The general category space separator. -/
def isSpaceSeparator (c : Char) : Bool :=
  let n := c.toNat
  n == 0x20 || n == 0xA0 || n == 0x1680 || (0x2000 ≤ n && n ≤ 0x200A) || n == 0x202F ||
    n == 0x205F || n == 0x3000

def isBlank (c : Char) : Bool :=
  let n := c.toNat
  (0x09 ≤ n && n ≤ 0x0D) || n == 0x85 || n == 0x2028 || n == 0x2029 || isSpaceSeparator c

end Highlight.Unicode
