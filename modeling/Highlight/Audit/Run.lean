import Highlight.Audit.Report
import Highlight.Files.Discovery
import Highlight.Highlighter.Load

/-!
# Auditing samples
-/

namespace Highlight.Audit

def auditSource (h : Highlighter) (path source : String) : Except FileError FileAudit := do
  return ⟨path, unscopedOf h.grammar.scopeName (← h.explain path source)⟩

def auditFile (fs : Files.FileSystem) (h : Highlighter) (path : String) :
    Except FileError FileAudit := do
  auditSource h path (← readFile fs path)

/-- Audits the sample at a path, or all samples below it. -/
def auditPath (fs : Files.FileSystem) (h : Highlighter) (path : String) :
    Except FileError Report := do
  return ⟨← (fs.discoverIn .sample path).mapM (auditFile fs h)⟩

end Highlight.Audit
