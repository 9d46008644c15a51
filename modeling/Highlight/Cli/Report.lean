import Highlight.Audit.Run
import Highlight.Check.Run
import Highlight.Cli.Arguments
import Highlight.Text.Quoted

/-!
# What a command does and prints

A command gives a report. Its text can be written once it is known how long the
checks took.
-/

namespace Highlight.Cli

inductive Report where
  | checked (summary : Check.RunSummary) (verbose : Bool)
  | audited (report : Audit.Report)
  /-- The tokens of a text, by line, and where its lines start. -/
  | dumped (text : TokenizedText) (starts : LineStarts)
  | notFound (path : String)
  | failed (message : String)

/-! ## Doing -/

/-- Does something with the grammar, if it can be loaded, and reports on it. -/
def withGrammar (fs : Files.FileSystem) (engine : Engine) (grammar : String)
    (act : Highlighter → Except FileError Report) : Report :=
  match Highlighter.load fs grammar engine with
  | .error e => .failed e.message
  | .ok h =>
    match act h with
    | .error e => .failed e.message
    | .ok report => report

def perform (fs : Files.FileSystem) (i : Invocation) (engine : Engine := .backtracking) : Report :=
  match i.command with
  | .test path filter verbose =>
    if !fs.exists path then .notFound path
    else withGrammar fs engine i.grammar fun h => do
      return .checked (← Check.checkPath fs h filter path) verbose
  | .audit path =>
    if !fs.exists path then .notFound path
    else withGrammar fs engine i.grammar fun h => do
      return .audited (← Audit.auditPath fs h path)
  | .dump file =>
    match readFile fs file with
    | .error e => .failed e.message
    | .ok source => withGrammar fs engine i.grammar fun h => do
      return .dumped (← h.explain file source) (.ofLines (Text.lines source))

/-! ## Printing -/

def printLines (ls : List String) : String :=
  String.join (ls.map (· ++ "\n"))

def resultLines (verbose : Bool) (r : Check.Result) : List String :=
  match r.outcome with
  | .passed => if verbose then [s!"  PASS: {r.assertion.label}"] else []
  | .failed message =>
    s!"  FAIL: {r.assertion.label}" :: (Text.printedLines message).map ("        " ++ ·)

/-- A file without results is left out, and one without failures is named only
if everything is wanted. -/
def fileLines (verbose : Bool) (f : Check.FileSummary) : List String :=
  if f.total = 0 then []
  else (if verbose || f.hasFailures then ["", f.path] else []) ++ f.results.flatMap (resultLines verbose)

def verdict (s : Check.RunSummary) : String :=
  if s.hasFailures then "FAILED"
  else if s.total = 0 then "NO ASSERTIONS FOUND"
  else "OK"

def summaryLines (elapsed : String) (verbose : Bool) (s : Check.RunSummary) : List String :=
  s.files.flatMap (fileLines verbose) ++
    ["", "Test Summary:",
      s!"  {s.passed} passed, {s.failed} failed ({s.total} total) in {s.files.length} files",
      s!"  Completed in {elapsed}", "", verdict s]

def fileAuditLines (a : Audit.FileAudit) : List String :=
  if a.isClean then [s!"{a.displayName}: all scoped"]
  else
    ["", s!"--- {a.displayName} ---"] ++
      a.unscoped.map (fun text => s!"  UNSCOPED: {Text.quoted text}") ++
      [s!"  {a.unscoped.length} unscoped token(s)"]

def auditLines (r : Audit.Report) : List String :=
  r.files.flatMap fileAuditLines ++
    ["", s!"Total: {r.total} unscoped token(s) across {r.files.length} files"]

/-- The line of a token, with the number of its text line and its column. -/
def tokenLine (number start : Nat) (t : Token) : String :=
  " ".intercalate (s!"{number}:{t.offset - start}" :: Text.quoted t.content ::
    if t.scopes.isEmpty then [""] else t.scopes)

def dumpLines (text : TokenizedText) (starts : LineStarts) : List String :=
  (text.lines.zipIdx.map fun (tokens, index) =>
    tokens.map (tokenLine (index + 1) ((starts.start? index).getD 0))).flatten

/-! ## Results -/

/-- What the program leaves behind. -/
structure Printed where
  exitCode : Nat
  output : String
  errors : String
  deriving DecidableEq, Repr

/-- The exit code is zero only if nothing failed. -/
def Report.exitCode : Report → Nat
  | checked s _ => s.exitCode
  | audited r => r.exitCode
  | dumped _ _ => 0
  | notFound _ | failed _ => 1

def Report.printed (elapsed : String) (r : Report) : Printed :=
  match r with
  | checked s verbose => ⟨r.exitCode, printLines (summaryLines elapsed verbose s), ""⟩
  | audited report => ⟨r.exitCode, printLines (auditLines report), ""⟩
  | dumped text starts => ⟨r.exitCode, printLines (dumpLines text starts), ""⟩
  | notFound path => ⟨r.exitCode, "", printLines [s!"Path not found: {path}"]⟩
  | failed message => ⟨r.exitCode, "", printLines [s!"error: {message}"]⟩

def versionLine : String := "pgsql-scopes 0.1.0"

def usageLines : List String :=
  ["Usage: pgsql-scopes [--grammar PATH] test [--filter PATTERN] [-v] [PATH]",
    "       pgsql-scopes [--grammar PATH] audit [PATH]",
    "       pgsql-scopes [--grammar PATH] dump FILE"]

def Stop.printed : Stop → Printed
  | help => ⟨0, printLines usageLines, ""⟩
  | version => ⟨0, printLines [versionLine], ""⟩
  | mistake e => ⟨2, "", printLines (s!"error: {e.message}" :: usageLines)⟩

/-- Runs the program on files with arguments. -/
def run (fs : Files.FileSystem) (elapsed : String) (args : List String) (engine : Engine := .backtracking) : Printed :=
  match readArguments args with
  | .error stop => stop.printed
  | .ok i => (perform fs i engine).printed elapsed

end Highlight.Cli
