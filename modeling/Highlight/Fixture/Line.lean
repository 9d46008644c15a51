import Highlight.Span
import Highlight.Text.Lines
import Highlight.Text.Words

/-!
# Lines of a fixture

A fixture line is code, or an assertion about the nearest code line above it:
a comment whose carets stand under the columns it speaks of.
-/

namespace Highlight.Fixture

open Unicode (isBlank)

/-- What an assertion line says. -/
structure Marks where
  /-- The byte columns under the carets. -/
  columns : Span
  scope : String
  /-- The scope must be absent. -/
  negated : Bool
  deriving DecidableEq, Repr

inductive Line where
  | code (text : String)
  | assertion (marks : Marks)
  deriving DecidableEq, Repr

/-- The scope after the carets, and whether a `!` stands before it. -/
def Marks.ofScope (columns : Span) (scope : List Char) : Marks :=
  match scope with
  | '!' :: rest => ⟨columns, String.ofList (Text.trim rest), true⟩
  | _ => ⟨columns, String.ofList scope, false⟩

/-- Blanks, two dashes, blanks and a run of carets make an assertion, whose
scope is the rest without the blanks around it. Anything else is code. -/
def Line.classify (text : String) : Line :=
  match Text.trimStart text.toList with
  | '-' :: '-' :: rest =>
    match Text.trimStart rest with
    | '^' :: tail =>
      let start := Text.byteCount (text.toList.takeWhile isBlank) + 2 +
        Text.byteCount (rest.takeWhile isBlank)
      let run := (tail.takeWhile (· == '^')).length + 1
      .assertion (.ofScope ⟨start, start + run⟩ (Text.trim (tail.dropWhile (· == '^'))))
    | _ => .code text
  | _ => .code text

end Highlight.Fixture
