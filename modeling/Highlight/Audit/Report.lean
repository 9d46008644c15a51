import Highlight.Files.Path
import Highlight.Text.Words
import Highlight.Token

/-!
# Coverage audit

Every visible token should stand in a scope that says what it is. The root
scope of the grammar and the `meta` scopes only say where a token stands.
-/

namespace Highlight.Audit

/-- Scopes that start like this say where a token stands, not what it is. -/
def metaStart : String := "meta."

/-- Whether `scope` says what a token is, under a grammar with this root. -/
def isMeaningful (root scope : String) : Bool :=
  scope != root && !metaStart.toList.isPrefixOf scope.toList

/-- Whether a token has visible text and no scope that says what it is. -/
def isUnscoped (root : String) (t : Token) : Bool :=
  Text.trim t.content.toList != [] && !t.scopes.any (isMeaningful root)

/-- The trimmed contents of the tokens that no scope describes, in order. -/
def unscopedOf (root : String) (text : TokenizedText) : List String :=
  (text.lines.flatten.filter (isUnscoped root)).map fun t => Text.trimmed t.content

structure FileAudit where
  path : String
  unscoped : List String
  deriving DecidableEq, Repr

def FileAudit.isClean (a : FileAudit) : Bool :=
  a.unscoped.isEmpty

/-- The name of the file, or the path as it is where that names no file. -/
def FileAudit.displayName (a : FileAudit) : String :=
  (Files.Path.fileName? a.path).getD a.path

structure Report where
  files : List FileAudit
  deriving DecidableEq, Repr

/-- The number of tokens that no scope describes. -/
def Report.total (r : Report) : Nat :=
  r.files.foldl (fun n file => n + file.unscoped.length) 0

def Report.isClean (r : Report) : Bool :=
  r.total == 0

def Report.exitCode (r : Report) : Nat :=
  if r.isClean then 0 else 1

end Highlight.Audit
