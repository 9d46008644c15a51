/-!
# Grammars as they are written

A grammar is a list of rules and a repository of named rules. A rule matches a
piece of a line, opens a region that another pattern closes, opens a region that
lasts while a condition holds, groups other rules, or stands for a named rule.
-/

namespace Highlight.Grammar

structure RuleSource where
  /-- The rule that this one stands for. -/
  reference : Option String
  pattern : Option String
  opening : Option String
  closing : Option String
  /-- What each later line must start with for the region to go on. -/
  condition : Option String
  name : Option String
  /-- The scopes of what is inside the region. -/
  contentName : Option String
  /-- What the groups of a pattern capture, by group number. -/
  captures : List (String × RuleSource)
  openingCaptures : List (String × RuleSource)
  closingCaptures : List (String × RuleSource)
  conditionCaptures : List (String × RuleSource)
  patterns : List RuleSource
  /-- Named rules that only this rule and those inside it see. -/
  repository : List (String × RuleSource)
  /-- The closing pattern yields to the rules inside the region. -/
  closingLast : Bool
  disabled : Bool

/-- A rule that says nothing. -/
def RuleSource.empty : RuleSource :=
  ⟨none, none, none, none, none, none, none, [], [], [], [], [], [], false, false⟩

instance : Inhabited RuleSource := ⟨.empty⟩

structure GrammarSource where
  name : Option String
  /-- The scope of the whole text. -/
  scopeName : Option String
  patterns : List RuleSource
  repository : List (String × RuleSource)

def GrammarSource.empty : GrammarSource :=
  ⟨none, none, [], []⟩

instance : Inhabited GrammarSource := ⟨.empty⟩

end Highlight.Grammar
