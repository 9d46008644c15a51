import Highlight.Fixture.Line

/-!
# Fixtures

A fixture is code with assertions about it between the lines. The code is
highlighted without the assertion lines, so these never shift a column.
-/

namespace Highlight

/-- What is said of a code line. -/
structure Assertion extends Fixture.Marks where
  /-- The line of the fixture that holds the assertion, counted from 1. -/
  fileLine : Nat
  /-- The code line it speaks of, counted from 0. -/
  codeLine : Nat
  deriving DecidableEq, Repr

/-- The name a result is reported under. -/
def Assertion.label (a : Assertion) : String :=
  s!"line {a.fileLine} col {a.columns.start}-{a.columns.stop}: " ++
    (if a.negated then "!" else "") ++ a.scope

structure Fixture where
  codeLines : List String
  assertions : List Assertion
  deriving DecidableEq, Repr

namespace Fixture

/-- The code lines, in order. -/
def codeOf (ls : List Line) : List String :=
  ls.filterMap fun
    | .code text => some text
    | .assertion _ => none

/-- The assertions that have code above them. The next line has the number
`number`, and `above` code lines stand above it. -/
def anchor (number above : Nat) : List Line → List Assertion
  | [] => []
  | .code _ :: ls => anchor (number + 1) (above + 1) ls
  | .assertion marks :: ls =>
    match above with
    | 0 => anchor (number + 1) 0 ls
    | k + 1 => ⟨marks, number, k⟩ :: anchor (number + 1) (k + 1) ls

def parse (source : String) : Fixture :=
  let ls := (Text.lines source).map Line.classify
  ⟨codeOf ls, anchor 1 0 ls⟩

/-- The text to highlight. -/
def code (f : Fixture) : String :=
  Text.unlines f.codeLines

end Fixture

end Highlight
