import Highlight.Unicode.Blank
import Highlight.Unicode.Folding
import Highlight.Unicode.Letters

/-!
# Sets of characters

The classes of patterns, as expressions whose meaning is a test.
-/

namespace Highlight

/-- Kinds of characters that have a name in patterns. -/
inductive CharKind where
  | alphabetic | alphanumeric | ascii | blank | control | decimal | hexadecimal | space
  /-- Word characters as a class lists them. -/
  | word
  /-- Word characters outside of classes. -/
  | wordOrNumeral
  deriving DecidableEq, Repr

def CharKind.contains (kind : CharKind) (c : Char) : Bool :=
  match kind with
  | .alphabetic => Unicode.isAlphabetic c
  | .alphanumeric => Unicode.isAlphabetic c || Unicode.isDigit c
  | .ascii => c.toNat < 0x80
  | .blank => c == '\t' || Unicode.isSpaceSeparator c
  | .control => c.toNat < 0x20 || (0x7F ≤ c.toNat && c.toNat < 0xA0)
  | .decimal => Unicode.isDigit c
  | .hexadecimal => c.isDigit || ('a' ≤ c && c ≤ 'f') || ('A' ≤ c && c ≤ 'F')
  | .space => Unicode.isBlank c
  | .word => Unicode.isWord c
  | .wordOrNumeral => Unicode.isWordOrNumeral c

inductive CharSet where
  | none
  /-- The characters with codes between two. -/
  | range (first last : Nat)
  | oneOf (cs : List Char)
  | kind (k : CharKind)
  | union (a b : CharSet)
  | inter (a b : CharSet)
  | compl (a : CharSet)
  /-- The characters that differ from one in `a` at most in case. -/
  | anyCase (a : CharSet)
  deriving Repr

namespace CharSet

def contains : CharSet → Char → Bool
  | none, _ => false
  | range first last, c => first ≤ c.toNat && c.toNat ≤ last
  | oneOf cs, c => cs.contains c
  | .kind k, c => k.contains c
  | union a b, c => a.contains c || b.contains c
  | inter a b, c => a.contains c && b.contains c
  | compl a, c => !a.contains c
  | anyCase a, c => a.contains c || (Unicode.caseVariants c).any a.contains

def single (c : Char) : CharSet := range c.toNat c.toNat

def ofKind (k : CharKind) (negated : Bool) : CharSet :=
  if negated then compl (.kind k) else .kind k

end CharSet

end Highlight
