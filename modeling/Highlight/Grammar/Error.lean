import Highlight.Json.Value
import Highlight.Regex.Error

/-!
# What can be wrong with a grammar
-/

namespace Highlight.Grammar

inductive Error where
  | malformed (problem : Json.Problem)
  | missingScopeName
  /-- A pattern that cannot be read, in a rule of this name or in one without a
  name inside it. -/
  | invalidPattern (rule pattern : String) (error : Regex.Error)
  deriving DecidableEq, Repr

def Error.message : Error → String
  | malformed problem => "malformed grammar JSON: " ++ problem.message
  | missingScopeName => "grammar has no `scopeName`"
  | invalidPattern rule pattern error =>
    s!"invalid regex in rule `{rule}`: {error.message}\n  pattern: {pattern}"

end Highlight.Grammar
