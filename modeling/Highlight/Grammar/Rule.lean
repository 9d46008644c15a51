import Highlight.Regex.Engine
import Highlight.Regex.Literal

/-!
# Rules

Rules refer to one another by keys of a type `ι`. Their patterns are of a type
`π`, which is `String` as long as the patterns are not read.
-/

namespace Highlight

/-- The scopes of what a group captured, and the rule whose patterns apply to it. -/
structure Capture (ι : Type) where
  group : Nat
  name : Option String
  patterns : Option ι
  deriving DecidableEq, Repr

/-- The pattern at the other end of a region. One that refers to groups of the
opening pattern can be read only when these are known. -/
inductive Closing (π : Type) where
  | fixed (pattern : π)
  | backReferenced (source : String)
  deriving DecidableEq, Repr

/-- How long a region lasts. -/
inductive Lasting where
  /-- Until its closing pattern matches, which the patterns inside may come before. -/
  | untilClosed (closingLast : Bool)
  /-- As long as its closing pattern matches at the start of each line. -/
  | whileHolds
  deriving DecidableEq, Repr

structure Region (ι π : Type) where
  name : Option String
  contentName : Option String
  opening : π
  openingCaptures : List (Capture ι)
  closing : Closing π
  closingCaptures : List (Capture ι)
  patterns : List ι
  lasting : Lasting
  deriving DecidableEq, Repr

inductive Rule (ι π : Type) where
  /-- Stands for the rules in it. -/
  | container (patterns : List ι)
  | piece (name : Option String) (pattern : π) (captures : List (Capture ι))
  | region (r : Region ι π)
  deriving DecidableEq, Repr

variable {ι κ π ρ ε : Type}

def Capture.renumber (f : ι → κ) (c : Capture ι) : Capture κ :=
  ⟨c.group, c.name, c.patterns.map f⟩

def Closing.read (parse : π → Except ε ρ) : Closing π → Except ε (Closing ρ)
  | fixed p => (parse p).map fixed
  | backReferenced s => .ok (backReferenced s)

/-- The pattern, where it does not depend on the opening. -/
def Closing.fixed? : Closing π → Option π
  | fixed p => some p
  | backReferenced _ => none

/-- A closing pattern is read at once unless it refers back. -/
def Closing.ofSource (source : String) : Closing String :=
  if Literal.hasBackReferences source then backReferenced source else fixed source

namespace Rule

/-- The pattern that starts the rule, if anything does. -/
def opening? : Rule ι π → Option π
  | container _ => none
  | piece _ p _ => some p
  | region r => some r.opening

/-- The rules that apply inside. -/
def patterns : Rule ι π → List ι
  | container ps => ps
  | piece _ _ _ => []
  | region r => r.patterns

/-- All captures, those of the opening first. -/
def captures : Rule ι π → List (Capture ι)
  | container _ => []
  | piece _ _ cs => cs
  | region r => r.openingCaptures ++ r.closingCaptures

/-- The same rule with other keys. -/
def renumber (f : ι → κ) : Rule ι π → Rule κ π
  | container ps => container (ps.map f)
  | piece name p cs => piece name p (cs.map (·.renumber f))
  | region r => region {
      name := r.name
      contentName := r.contentName
      opening := r.opening
      openingCaptures := r.openingCaptures.map (·.renumber f)
      closing := r.closing
      closingCaptures := r.closingCaptures.map (·.renumber f)
      patterns := r.patterns.map f
      lasting := r.lasting }

/-- The same rule with its patterns read. -/
def read (parse : π → Except ε ρ) : Rule ι π → Except ε (Rule ι ρ)
  | container ps => .ok (container ps)
  | piece name p cs => (parse p).map fun p => piece name p cs
  | region r =>
    match parse r.opening, r.closing.read parse with
    | .ok opening, .ok closing => .ok (region {
        name := r.name
        contentName := r.contentName
        opening := opening
        openingCaptures := r.openingCaptures
        closing := closing
        closingCaptures := r.closingCaptures
        patterns := r.patterns
        lasting := r.lasting })
    | .error e, _ => .error e
    | _, .error e => .error e

end Rule

end Highlight
