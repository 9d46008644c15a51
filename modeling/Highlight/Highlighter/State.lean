import Highlight.Grammar.Compile
import Highlight.Painting
import Highlight.Scope.Template

/-!
# Open regions

A highlighter goes through a text with a stack of open regions. Each remembers
the scopes around it, those of its delimiters and those of its content.
-/

namespace Highlight

structure Frame where
  /-- The rule of the region. -/
  rule : Nat
  region : Region Nat Pattern
  /-- The pattern at the other end, with the groups of the opening put in. -/
  closing : Pattern
  outer : List String
  named : List String
  inner : List String
  /-- Where on this line the search began that found the opening. -/
  enteredAt : Option Nat
  deriving Repr

structure State where
  /-- The rule that applies outside of all regions. -/
  base : Nat
  baseScopes : List String
  /-- The open regions, innermost first. -/
  frames : List Frame
  deriving Repr

namespace State

def start (base : Nat) (scopes : List String) : State :=
  ⟨base, scopes, []⟩

/-- The scopes that apply. -/
def scopes (s : State) : List String :=
  match s.frames with
  | [] => s.baseScopes
  | f :: _ => f.inner

/-- The rule that applies. -/
def rule (s : State) : Nat :=
  match s.frames with
  | [] => s.base
  | f :: _ => f.rule

def push (s : State) (f : Frame) : State :=
  { s with frames := f :: s.frames }

/-- The same at the start of a new line. -/
def atLineStart (s : State) : State :=
  { s with frames := s.frames.map fun f => { f with enteredAt := none } }

/-- The rules of the innermost regions that were opened by searches from here. -/
def openedAt (s : State) (position : Nat) : List Nat :=
  (s.frames.takeWhile fun f => f.enteredAt = some position).map (·.rule)

theorem openedAt_push {s : State} {f : Frame} {position : Nat} (h : f.enteredAt = some position) :
    (s.push f).openedAt position = f.rule :: s.openedAt position := by
  simp [openedAt, push, h]

end State

/-- The texts of the groups. -/
def Match.texts (m : Match) (text : Array Char) : List (Option String) :=
  m.groups.map fun g => g.bind fun s =>
    if s.start ≤ s.stop ∧ s.stop ≤ text.size then
      some (String.ofList (text.extract s.start s.stop).toList)
    else none

inductive TokenizeError where
  /-- The closing pattern of a region cannot be read with the groups put in. -/
  | invalidClosing (line : Nat) (pattern : String) (error : Regex.Error)
  /-- The text of a capture leads back to itself. -/
  | endless (line : Nat)
  deriving DecidableEq, Repr

def TokenizeError.message : TokenizeError → String
  | invalidClosing line pattern error =>
    s!"invalid back-referenced pattern on line {line}: {error.message}\n  pattern: {pattern}"
  | endless line => s!"captures without end on line {line}"

end Highlight
