/-!
# File trees

Files and directories as a value, and how a path is followed in them.
-/

namespace Highlight.Files

inductive Node where
  | file (bytes : ByteArray)
  | directory (entries : List (String × Node))

instance : Inhabited Node := ⟨.directory []⟩

namespace Node

def entries : Node → List (String × Node)
  | file _ => []
  | directory es => es

/-- The tree with a node put at a place; an empty directory is put over a
directory without effect. -/
def insert (tree : Node) (names : List String) (new : Node) : Node :=
  match names with
  | [] =>
    match new, tree with
    | directory [], directory es => directory es
    | new, _ => new
  | name :: names =>
    let old := (tree.entries.lookup name).getD (directory [])
    directory (tree.entries.filter (·.1 ≠ name) ++ [(name, insert old names new)])

end Node

/-- Why a path cannot be read. -/
inductive ReadError where
  | notFound
  | isDirectory
  /-- The path goes on after a file. -/
  | notDirectory
  | notText
  deriving DecidableEq, Repr

def ReadError.message : ReadError → String
  | .notFound => "No such file or directory (os error 2)"
  | .isDirectory => "Is a directory (os error 21)"
  | .notDirectory => "Not a directory (os error 20)"
  | .notText => "stream did not contain valid UTF-8"

/-- Follows the pieces of a path from a node. `above` holds the directories on
the way to the node, innermost first; above the root is the root. -/
def follow (above : List Node) (node : Node) : List (List Char) → Except ReadError Node
  | [] => .ok node
  | piece :: pieces =>
    match node with
    | .file _ => .error .notDirectory
    | .directory entries =>
      match piece with
      | [] | ['.'] => follow above node pieces
      | ['.', '.'] =>
        match above with
        | [] => follow [] node pieces
        | dir :: dirs => follow dirs dir pieces
      | name =>
        match entries.lookup (String.ofList name) with
        | none => .error .notFound
        | some next => follow (node :: above) next pieces

/-- A tree of files and the directory that relative paths start in. -/
structure FileSystem where
  root : Node
  workingDirectory : List String

/-- What stands at a path. -/
def FileSystem.find (fs : FileSystem) (path : String) : Except ReadError Node :=
  match path.toList with
  | [] => .error .notFound
  | '/' :: rest => follow [] fs.root (rest.splitOn '/')
  | cs => follow [] fs.root (fs.workingDirectory.map String.toList ++ cs.splitOn '/')

def FileSystem.exists (fs : FileSystem) (path : String) : Bool :=
  (fs.find path).toOption.isSome

/-- The text of the file at a path. -/
def FileSystem.readText (fs : FileSystem) (path : String) : Except ReadError String :=
  match fs.find path with
  | .error e => .error e
  | .ok (.directory _) => .error .isDirectory
  | .ok (.file bytes) =>
    match String.fromUTF8? bytes with
    | some text => .ok text
    | none => .error .notText

end Highlight.Files
