import Highlight.Files.Path
import Highlight.Files.Tree

/-!
# Finding fixtures and samples

Fixtures are the files named `*.test.sql`, samples all other `*.sql` files. A
directory is searched to its bottom, except for hidden entries and directories
named `target`, and the paths found are in path order.
-/

namespace Highlight.Files

inductive Kind where
  | fixture
  | sample
  deriving DecidableEq, Repr

def fixtureEnding : String := ".test.sql"

def sqlExtension : String := "sql"

/-- The name below which no search goes. -/
def buildDirectory : String := "target"

/-- Whether a file of this name is of the kind. -/
def Kind.acceptsName (kind : Kind) (name : String) : Bool :=
  let isFixture := fixtureEnding.toList.isSuffixOf name.toList
  match kind with
  | .fixture => isFixture
  | .sample => Path.extension? name = some sqlExtension && !isFixture

def Kind.accepts (kind : Kind) (path : String) : Bool :=
  (Path.fileName? path).any kind.acceptsName

def isHidden (name : String) : Bool :=
  name.toList.head? = some '.'

mutual

/-- The paths of the accepted files below the directory `dir`, whose entries
are given, in listing order. -/
def collect (kind : Kind) (dir : String) : List (String × Node) → List String
  | [] => []
  | (name, node) :: entries =>
    (if isHidden name then [] else visit kind name (Path.join dir name) node) ++
      collect kind dir entries

/-- The paths of the accepted files at and below the entry `name`. -/
def visit (kind : Kind) (name path : String) : Node → List String
  | .file _ => if kind.acceptsName name then [path] else []
  | .directory entries => if name = buildDirectory then [] else collect kind path entries

end

namespace FileSystem

/-- The accepted files below a directory, in path order. -/
def discover (fs : FileSystem) (kind : Kind) (root : String) : List String :=
  match fs.find root with
  | .ok (.directory entries) => (collect kind root entries).mergeSort Path.le
  | _ => []

/-- A file of the kind stands for itself, a directory for what is below it. -/
def discoverIn (fs : FileSystem) (kind : Kind) (path : String) : List String :=
  match fs.find path with
  | .ok (.file _) => if kind.accepts path then [path] else []
  | .ok (.directory _) => fs.discover kind path
  | .error _ => []

end FileSystem

end Highlight.Files
