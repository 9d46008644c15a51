import Highlight.Files.Tree
import Highlight.Highlighter.Tokenize
import Highlight.Regex.Search

/-!
# Loading a grammar

The program runs with the engine that tries every way.
-/

namespace Highlight

def Grammar.ofText (s : String) (engine : Engine := .backtracking) : Except Grammar.Error Grammar :=
  match GrammarSource.ofText s with
  | .error p => .error (.malformed p)
  | .ok g => compile engine g

inductive LoadError where
  | unreadable (path : String) (error : Files.ReadError)
  | invalid (error : Grammar.Error)
  deriving DecidableEq, Repr

def LoadError.message : LoadError → String
  | unreadable path error => s!"failed to read grammar {path}: {error.message}"
  | invalid error => error.message

namespace Highlighter

def ofGrammar (g : Grammar) (engine : Engine := .backtracking) : Highlighter :=
  ⟨g, engine⟩

/-- A highlighter for the grammar in the file at a path. -/
def load (fs : Files.FileSystem) (path : String) (engine : Engine := .backtracking) : Except LoadError Highlighter :=
  match fs.readText path with
  | .error e => .error (.unreadable path e)
  | .ok text =>
    match Grammar.ofText text engine with
    | .error e => .error (.invalid e)
    | .ok g => .ok (ofGrammar g engine)

end Highlighter

/-- Why a file could not be highlighted. -/
inductive FileError where
  | unreadable (path : String) (error : Files.ReadError)
  | untokenizable (path : String) (error : TokenizeError)
  deriving DecidableEq, Repr

def FileError.message : FileError → String
  | unreadable path error => s!"failed to read {path}: {error.message}"
  | untokenizable path error => s!"failed to tokenize {path}: {error.message}"

namespace Highlighter

/-- The tokens of a text that is the content of a file, with their scopes. -/
def explain (h : Highlighter) (path text : String) : Except FileError TokenizedText :=
  (h.tokenize text true).mapError (.untokenizable path)

end Highlighter

/-- The text of the file at a path. -/
def readFile (fs : Files.FileSystem) (path : String) : Except FileError String :=
  (fs.readText path).mapError (.unreadable path)

end Highlight
