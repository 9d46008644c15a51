import Highlight.Highlighter.State

/-!
# Painting a match

The captures of a match cut it into segments, each with the scopes of the
captures around it. A segment in a capture with patterns is tokenized again by
these; captures inside such a capture do not count.
-/

namespace Highlight

/-- A capture that took part in a match, and where. -/
structure Active where
  span : Span
  capture : Capture Nat
  deriving Repr

/-- The part of `s` inside `outer`. -/
def Span.clampTo (outer s : Span) : Span :=
  ⟨max outer.start (min outer.stop s.start), max outer.start (min outer.stop s.stop)⟩

def Span.contains (outer s : Span) : Bool :=
  outer.start ≤ s.start && s.stop ≤ outer.stop

namespace Active

/-- Where a group captured something inside the match. -/
def span? (m : Match) (group : Nat) : Option Span :=
  match m.groups[group]? with
  | some (some s) =>
    let s := m.span.clampTo s
    if s.start < s.stop then some s else none
  | _ => none

/-- Whether a span is left to the patterns of a capture around it. -/
def shadows (actives : List Active) (s : Span) : Bool :=
  actives.any fun a => a.capture.patterns.isSome && a.span.contains s

/-- The captures that count, in order, after those found so far. -/
def collect (m : Match) (found : List Active) : List (Capture Nat) → List Active
  | [] => found
  | c :: cs =>
    match span? m c.group with
    | none => collect m found cs
    | some s => collect m (if shadows found s then found else found ++ [⟨s, c⟩]) cs

/-- The captures that count for a match. -/
def ofMatch (m : Match) (captures : List (Capture Nat)) : List Active :=
  collect m [] captures

end Active

/-- A segment of a match, its scopes, and the rule to tokenize it again by. -/
structure Segment where
  span : Span
  scopes : List String
  again : Option Nat
  deriving DecidableEq, Repr

namespace Segment

/-- The positions where segments start or end. -/
def bounds (whole : Span) (actives : List Active) : List Nat :=
  ((whole.start :: whole.stop :: actives.flatMap fun a => [a.span.start, a.span.stop]).mergeSort
    (· ≤ ·)).eraseDups

/-- The segment between two neighbouring bounds. -/
def between (actives : List Active) (scopes : List String) (groups : List (Option String))
    (s : Span) : Segment :=
  let around := actives.filter fun a => a.span.contains s
  { span := s
    scopes := scopes ++ around.flatMap fun a => Scope.ofTemplate a.capture.name groups
    again := (around.filterMap fun a => a.capture.patterns).getLast? }

/-- The segments of a match from left to right. -/
def ofMatch (text : Array Char) (m : Match) (captures : List (Capture Nat)) (scopes : List String) :
    List Segment :=
  let actives := Active.ofMatch m captures
  let bounds := bounds m.span actives
  (bounds.zip bounds.tail).map fun b => between actives scopes (m.texts text) ⟨b.1, b.2⟩

end Segment

/-- A way to tokenize the end of a text from a position on by a rule. -/
abbrev Retokenize :=
  (text : Array Char) → (start : Nat) → State → Painting → Except TokenizeError Painting

/-- Paints a segment, or has it tokenized again. -/
def Painting.addSegment (again : Retokenize) (text : Array Char) (p : Painting) (s : Segment) :
    Except TokenizeError Painting :=
  match s.again with
  | some rule => again (text.extract 0 s.span.stop) s.span.start (.start rule s.scopes) p
  | none => .ok (p.paint s.span.start s.span.stop s.scopes)

/-- Paints a match that has the given scopes. -/
def Painting.addMatch (again : Retokenize) (text : Array Char) (m : Match)
    (captures : List (Capture Nat)) (scopes : List String) (p : Painting) :
    Except TokenizeError Painting :=
  if m.span.start = m.span.stop then .ok p
  else if captures.isEmpty then .ok (p.paint m.span.start m.span.stop scopes)
  else (Segment.ofMatch text m captures scopes).foldlM (Painting.addSegment again text) p

end Highlight
