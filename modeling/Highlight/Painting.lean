import Highlight.Span

/-!
# Painting a line

A line is painted with scope stacks from left to right. Paint neither covers what
is painted already nor runs over the end of the line, and neighbouring stretches
have different stacks.
-/

namespace Highlight

structure Stretch where
  span : Span
  scopes : List String
  deriving DecidableEq, Repr

structure Painting where
  /-- The length of the line. -/
  length : Nat
  /-- From right to left. -/
  stretches : List Stretch
  deriving DecidableEq, Repr

namespace Painting

def blank (length : Nat) : Painting :=
  ⟨length, []⟩

/-- Where the paint ends. -/
def covered (p : Painting) : Nat :=
  (p.stretches.head?.map (·.span.stop)).getD 0

/-- Adds a stretch to the right, or makes the last one longer. -/
def add (p : Painting) (s : Stretch) : Painting :=
  match p.stretches with
  | [] => { p with stretches := [s] }
  | last :: before =>
    if last.span.stop = s.span.start ∧ last.scopes = s.scopes then
      { p with stretches := ⟨⟨last.span.start, s.span.stop⟩, last.scopes⟩ :: before }
    else { p with stretches := s :: last :: before }

/-- Paints what is free of the positions from `start` up to `stop`. -/
def paint (p : Painting) (start stop : Nat) (scopes : List String) : Painting :=
  let free : Span := ⟨max start p.covered, min stop p.length⟩
  if free.start < free.stop then p.add ⟨free, scopes⟩ else p

end Painting

end Highlight
