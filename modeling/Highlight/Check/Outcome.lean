import Highlight.Fixture.Assertions
import Highlight.Fixture.LineStarts
import Highlight.Scope.Found

/-!
# Checking an assertion

An assertion passes if, among the scopes of the tokens under its carets, the
scope it names is present, or absent if it is negated.
-/

namespace Highlight.Check

open Fixture (Marks)

/-- Why an assertion does not hold. -/
inductive Mismatch where
  /-- The code line, counted from 0, was not highlighted. -/
  | noTokens (codeLine : Nat)
  /-- The scope is missing among those found. -/
  | missing (marks : Marks) (found : Scope.Found)
  /-- The scope is among those found and must not be. -/
  | unwanted (marks : Marks) (found : Scope.Found)

def Mismatch.message : Mismatch → String
  | .noTokens codeLine => s!"No tokens for code line {codeLine + 1}"
  | .missing marks found =>
    s!"Expected scope \"{marks.scope}\" at columns {marks.columns.start}-{marks.columns.stop}.\n" ++
      s!"Found scopes: {found.display}"
  | .unwanted marks found =>
    s!"Expected scope \"{marks.scope}\" to NOT be present at columns " ++
      s!"{marks.columns.start}-{marks.columns.stop}.\nFound scopes: {found.display}"

inductive Outcome where
  | passed
  | failed (message : String)
  deriving DecidableEq, Repr

def Outcome.isFailed : Outcome → Bool
  | .passed => false
  | .failed _ => true

/-- What is wrong with an assertion about the highlighted lines, if anything. -/
def mismatch? (a : Assertion) (text : TokenizedText) (starts : LineStarts) : Option Mismatch :=
  match text.line? a.codeLine, starts.absolute? a.codeLine a.columns with
  | some tokens, some span =>
    let found := Scope.inSpan tokens span
    if found.meets a.scope then
      if a.negated then some (.unwanted a.toMarks found) else none
    else
      if a.negated then none else some (.missing a.toMarks found)
  | _, _ => some (.noTokens a.codeLine)

def outcome (a : Assertion) (text : TokenizedText) (starts : LineStarts) : Outcome :=
  match mismatch? a text starts with
  | none => .passed
  | some m => .failed m.message

end Highlight.Check
