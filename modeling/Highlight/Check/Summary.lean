import Highlight.Check.Outcome

/-!
# Summaries of checks

A file summary holds the results of one fixture in source order, a run summary
those of several fixtures in the order they were checked. Both count what
passed and what failed.
-/

namespace Highlight.Check

/-- An assertion of a file with its outcome. -/
structure Result where
  file : String
  assertion : Assertion
  outcome : Outcome
  deriving DecidableEq, Repr

structure FileSummary where
  path : String
  results : List Result
  passed : Nat
  failed : Nat
  deriving DecidableEq, Repr

namespace FileSummary

def empty (path : String) : FileSummary :=
  ⟨path, [], 0, 0⟩

def add (s : FileSummary) (r : Result) : FileSummary :=
  { s with
    results := s.results ++ [r]
    passed := if r.outcome.isFailed then s.passed else s.passed + 1
    failed := if r.outcome.isFailed then s.failed + 1 else s.failed }

def ofResults (path : String) (results : List Result) : FileSummary :=
  results.foldl add (empty path)

def total (s : FileSummary) : Nat :=
  s.passed + s.failed

def hasFailures (s : FileSummary) : Bool :=
  0 < s.failed

end FileSummary

structure RunSummary where
  files : List FileSummary
  passed : Nat
  failed : Nat
  deriving DecidableEq, Repr

namespace RunSummary

def empty : RunSummary :=
  ⟨[], 0, 0⟩

def add (s : RunSummary) (file : FileSummary) : RunSummary :=
  ⟨s.files ++ [file], s.passed + file.passed, s.failed + file.failed⟩

def ofFiles (files : List FileSummary) : RunSummary :=
  files.foldl add empty

def total (s : RunSummary) : Nat :=
  s.passed + s.failed

def hasFailures (s : RunSummary) : Bool :=
  0 < s.failed

/-- Zero if nothing failed, also if there was nothing to check. -/
def exitCode (s : RunSummary) : Nat :=
  if s.hasFailures then 1 else 0

end RunSummary

end Highlight.Check
