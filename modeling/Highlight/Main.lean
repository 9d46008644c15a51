import Highlight.Cli.Elapsed
import Highlight.Cli.Report

/-!
# The command line

The files that an invocation is about are read before it is performed.
-/

open Highlight Files

/-- What stands at a place of the file system, if anything that can be read. -/
partial def nodeAt (place : String) : IO (Option Node) := do
  let here := (← IO.currentDir) / place
  if ← here.isDir then
    let mut entries := []
    for entry in ← here.readDir do
      if isHidden entry.fileName || entry.fileName == buildDirectory then continue
      if let some node ← nodeAt entry.path.toString then
        entries := (entry.fileName, node) :: entries
    return some (.directory entries)
  else if ← here.pathExists then
    return some (.file (← IO.FS.readBinFile here))
  else return none

/-- Adds what a path leads to, and the directories on the way. -/
partial def addPath (tree : Node) (place : List String) : List String → IO Node
  | [] => do
    match ← nodeAt ("/" ++ "/".intercalate place) with
    | some node => return tree.insert place node
    | none => return tree
  | name :: rest => do
    match name with
    | "" | "." => addPath tree place rest
    | ".." => addPath (tree.insert place (.directory [])) place.dropLast rest
    | name =>
      if ← ((← IO.currentDir) / ("/" ++ "/".intercalate place)).isDir then
        addPath (tree.insert place (.directory [])) (place ++ [name]) rest
      else addPath tree place []

def pieces (path : String) : List String :=
  path.splitOn "/"

/-- The files that paths lead to. -/
def readTree (paths : List String) : IO FileSystem := do
  let directory := (pieces (← IO.currentDir).toString).filter (· ≠ "")
  let mut tree := Node.directory []
  for path in paths do
    tree ← addPath tree (if path.startsWith "/" then [] else directory) (pieces path)
  return ⟨tree, directory⟩

def pathOf : Cli.Command → String
  | .test path _ _ | .audit path | .dump path => path

def printAll (p : Cli.Printed) : IO UInt32 := do
  (← IO.getStdout).putStr p.output
  (← IO.getStderr).putStr p.errors
  return UInt32.ofNat p.exitCode

def main (args : List String) : IO UInt32 := do
  match Cli.readArguments args with
  | .error stop => printAll stop.printed
  | .ok i =>
    let fs ← readTree [i.grammar, pathOf i.command]
    let start ← IO.monoNanosNow
    let report ← IO.lazyPure fun _ => Cli.perform fs i
    let stop ← IO.monoNanosNow
    printAll (report.printed (Cli.elapsedText (stop - start)))
