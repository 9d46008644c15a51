import Highlight.Check.Summary
import Highlight.Files.Discovery
import Highlight.Highlighter.Load
import Highlight.Text.Search

/-!
# Checking fixtures

The code of a fixture is highlighted as a whole, and each selected assertion is
checked, whatever the ones before it gave. A fixture that cannot be read or
highlighted ends a run.
-/

namespace Highlight.Check

/-- Whether an assertion is to be checked. A filter selects by label. -/
def selects (filter : Option String) (a : Assertion) : Bool :=
  match filter with
  | none => true
  | some part => Text.contains a.label part

def checkSource (h : Highlighter) (filter : Option String) (path source : String) :
    Except FileError FileSummary := do
  let fixture := Fixture.parse source
  let tokens ← h.explain path fixture.code
  let starts := LineStarts.ofLines fixture.codeLines
  return .ofResults path ((fixture.assertions.filter (selects filter)).map fun a =>
    ⟨path, a, outcome a tokens starts⟩)

def checkFile (fs : Files.FileSystem) (h : Highlighter) (filter : Option String) (path : String) :
    Except FileError FileSummary := do
  checkSource h filter path (← readFile fs path)

/-- Checks the fixture at a path, or all fixtures below it. -/
def checkPath (fs : Files.FileSystem) (h : Highlighter) (filter : Option String) (path : String) :
    Except FileError RunSummary := do
  return .ofFiles (← (fs.discoverIn .fixture path).mapM (checkFile fs h filter))

end Highlight.Check
