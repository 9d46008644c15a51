import Highlight.Grammar.Compile

/-!
# The rules that matter

The rules that can be reached from the root, nearest first.
-/

namespace Highlight.Grammar

/-- The rules that a rule leads to: those that may start inside it, then those
for the texts of its captures. -/
def links (g : Grammar) (id : Nat) (r : Rule Nat Pattern) : List Nat :=
  g.candidatesIn id ++ r.captures.filterMap (·.patterns)

/-- The rules that waiting ones lead to, breadth first. -/
def spread (g : Grammar) (waiting seen : List Nat) : List Nat :=
  match waiting with
  | [] => []
  | id :: waiting =>
    if id ∈ seen then g.spread waiting seen
    else match _h : g.rules[id]? with
      | none => g.spread waiting (id :: seen)
      | some r => id :: g.spread (waiting ++ g.links id r) (id :: seen)
termination_by (unseen g.rules.size seen, waiting.length)
decreasing_by
  all_goals have := unseen_cons_le g.rules.size id seen
  all_goals grind

def reachable (g : Grammar) : List Nat :=
  g.spread [0] []

end Highlight.Grammar
