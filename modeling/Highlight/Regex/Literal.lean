/-!
# Literal text in patterns

The end of a region may be the text that a group of its beginning matched. Its
pattern refers to the group by a backslash and a digit, and is read only after
the escaped text of the group has been put in.
-/

namespace Highlight.Literal

/-- The characters that mean something in a pattern. -/
def isSpecial (c : Char) : Bool :=
  ['\\', '^', '$', '.', '|', '?', '*', '+', '(', ')', '[', ']', '\x7b', '\x7d', '-', '#', ' '].contains c

def escapeChar (c : Char) : List Char :=
  if isSpecial c then ['\\', c] else [c]

/-- The pattern that matches `text` and nothing else. -/
def escape (text : String) : String :=
  String.ofList (text.toList.flatMap escapeChar)

/-- The pieces of a pattern that escapes are made of. -/
inductive Piece where
  | plain (c : Char)
  /-- A backslash and the character after it. -/
  | pair (c : Char)
  /-- A backslash at the end. -/
  | lone
  deriving DecidableEq, Repr

def pieces : List Char → List Piece
  | [] => []
  | ['\\'] => [.lone]
  | '\\' :: c :: cs => .pair c :: pieces cs
  | c :: cs => .plain c :: pieces cs

namespace Piece

def text : Piece → List Char
  | plain c => [c]
  | pair c => ['\\', c]
  | lone => ['\\']

/-- The number of the group that the piece refers to. -/
def reference? : Piece → Option Nat
  | pair c => if '1' ≤ c ∧ c ≤ '9' then some (c.toNat - '0'.toNat) else none
  | _ => none

/-- The piece with the escaped text of its group in its place, which is empty
where the group did not take part. -/
def resolve (groups : List (Option String)) (p : Piece) : List Char :=
  match p.reference? with
  | some n => (groups[n]?.join.map fun t => (escape t).toList).getD []
  | none => p.text

end Piece

def hasBackReferences (source : String) : Bool :=
  (pieces source.toList).any fun p => p.reference?.isSome

def resolveBackReferences (source : String) (groups : List (Option String)) : String :=
  String.ofList ((pieces source.toList).flatMap (Piece.resolve groups))

end Highlight.Literal
