import Highlight.Grammar.Candidates
import Highlight.Grammar.Error
import Highlight.Grammar.Reading
import Highlight.Grammar.Weight

/-!
# Compiling a grammar

The rules of a grammar are laid out from the root, each address once, and then
numbered in the order in which they were met. The first pattern that cannot be
read, in the order of the layout, makes the grammar invalid.
-/

namespace Highlight

/-- A grammar that texts can be highlighted with. Rule 0 is its root. -/
structure Grammar where
  name : Option String
  /-- The scope of the whole text. -/
  scopeName : String
  rules : Array (Rule Nat Pattern)
  /-- For each rule the rules that may start inside it, first ones preferred. -/
  candidates : Array (List Nat) := rules.map fun r => expand rules r.patterns []
  candidates_eq : candidates = rules.map fun r => expand rules r.patterns [] := by rfl

namespace Grammar

/-- The rules met so far. -/
structure Draft where
  nodes : List Node
  /-- The patterns to read, each with what messages call its rule. -/
  reads : List (String × String)

namespace Draft

def empty : Draft := ⟨[], []⟩

def addresses (d : Draft) : List Address :=
  d.nodes.map (·.address)

def add (d : Draft) (n : Node) : Draft :=
  { d with nodes := d.nodes ++ [n] }

def addRead (d : Draft) (label source : String) : Draft :=
  { d with reads := d.reads ++ [(label, source)] }

/-- Lays out a node and what it leads on to, unless something is at its address. -/
def layOut (n : Node) (d : Draft) : Draft :=
  if n.address ∈ d.addresses then d
  else n.steps.attach.foldl (fun d s => match s with
    | ⟨.read label source, _⟩ => d.addRead label source
    | ⟨.visit m, _⟩ => layOut m d) (d.add n)
termination_by n.weight
decreasing_by exact Node.weight_lt_of_visit ‹_›

/-- The rules, which refer to one another by their places among the nodes. -/
def rules (d : Draft) : List (Rule Nat String) :=
  d.nodes.map fun n => n.rule.renumber d.addresses.idxOf

end Draft

def rootNode (g : GrammarSource) (scopeName : String) : Node where
  address := .root
  sight := [.of .root g.repository]
  label := scopeName
  body := .group g.patterns

def readPattern (engine : Engine) (label source : String) : Except Error Pattern :=
  (engine.read source).mapError (.invalidPattern label source)

def compile (engine : Engine) (g : GrammarSource) : Except Error Grammar :=
  match g.scopeName with
  | none => .error .missingScopeName
  | some scopeName => do
    let draft := Draft.empty.layOut (rootNode g scopeName)
    draft.reads.forM fun (label, source) => discard (readPattern engine label source)
    let rules ← draft.rules.mapM (Rule.read (readPattern engine scopeName))
    return { name := g.name, scopeName, rules := rules.toArray }

/-- The rules that may start inside a rule. -/
def candidatesIn (g : Grammar) (id : Nat) : List Nat :=
  g.candidates[id]?.getD []

end Grammar

end Highlight
