import Highlight.Grammar.Rule
import Highlight.Grammar.Source
import Highlight.Text.Digits

/-!
# The layout of a grammar

Each rule of a grammar has an address. The address of a named rule is found from
where its name is used: the innermost repository in sight that holds the name.
A rule refers to other rules by address, and it leads on to those among them that
may not have been met yet.
-/

namespace Highlight.Grammar

/-- Which captures of a rule, for a match of which of its patterns. -/
inductive CaptureUse where
  | piece | opening | closing | condition
  deriving DecidableEq, Repr

inductive Slot where
  | pattern (index : Nat)
  /-- The patterns of a capture. -/
  | capture (use : CaptureUse) (key : String)
  deriving DecidableEq, Repr

inductive Address where
  | root
  /-- A named rule, by the names on the way from the unnamed rule, or the
  grammar, in whose repository the first of them is. -/
  | named (owner : Address) (path : String)
  | inner (owner : Address) (slot : Slot)
  deriving DecidableEq, Repr

/-- A repository in sight. While a named rule is being laid out, its name stands
there without the rule. -/
structure Repository where
  owner : Address
  path : String
  entries : List (String × Option RuleSource)

namespace Repository

def ofEntries (owner : Address) (path : String) (entries : List (String × RuleSource)) : Repository :=
  ⟨owner, path, entries.map fun e => (e.1, some e.2)⟩

/-- The repository that the rule at an address brings along. -/
def of (address : Address) (entries : List (String × RuleSource)) : Repository :=
  match address with
  | .named owner path => ofEntries owner path entries
  | address => ofEntries address "" entries

def addressOf (r : Repository) (name : String) : Address :=
  .named r.owner (r.path ++ "/" ++ name)

/-- The repository while the rule of this name is laid out. -/
def without (r : Repository) (name : String) : Repository :=
  { r with entries := r.entries.map fun e => if e.1 = name then (e.1, none) else e }

end Repository

/-- What is laid out at an address. -/
inductive Body where
  | group (patterns : List RuleSource)
  | rule (source : RuleSource)

structure Node where
  address : Address
  /-- The repositories in sight, innermost first. -/
  sight : List Repository
  /-- What messages call the rule unless it has a name of its own. -/
  label : String
  body : Body

/-- A rule that is referred to, and what it leads on to unless that is known. -/
structure Target where
  address : Address
  node : Option Node

/-- The rule of this name in the innermost repository in sight that has one. A
named rule that only stands for another one is a group of that one. -/
def resolve (name : String) : List Repository → Option Target
  | [] => none
  | r :: outer =>
    match r.entries.lookup name with
    | none => resolve name outer
    | some source? => some {
        address := r.addressOf name
        node := source?.map fun source => {
          address := r.addressOf name
          sight := r.without name :: outer
          label := name
          body := if source.reference.isSome then .group [source] else .rule source } }

/-- The rule that a reference means. One to a rule of another grammar means none. -/
def referred? (sight : List Repository) (reference : String) : Option Target :=
  if reference = "$self" ∨ reference = "$base" then some ⟨.root, none⟩
  else match reference.toList with
    | '#' :: name => resolve (String.ofList name) sight
    | _ => none

/-- What a pattern in a list refers to. A disabled one is passed over. -/
def target? (owner : Address) (sight : List Repository) (label : String) (index : Nat)
    (p : RuleSource) : Option Target :=
  if p.disabled then none
  else match p.reference with
    | some reference => referred? sight reference
    | none =>
      let address := Address.inner owner (.pattern index)
      some ⟨address, some ⟨address, sight, label, .rule p⟩⟩

def targets (owner : Address) (sight : List Repository) (label : String) (ps : List RuleSource) :
    List Target :=
  ps.zipIdx.filterMap fun (p, index) => target? owner sight label index p

/-- What a group with this key captures. A key that is no number means nothing. -/
def captureTarget? (owner : Address) (sight : List Repository) (label : String) (use : CaptureUse)
    (key : String) (c : RuleSource) : Option (Capture Address × Option Node) :=
  (Text.number? key.toList).map fun group =>
    if c.patterns.isEmpty then (⟨group, c.name, none⟩, none)
    else
      let address := Address.inner owner (.capture use key)
      (⟨group, c.name, some address⟩, some ⟨address, sight, label, .group c.patterns⟩)

/-! ## Rules and what they lead on to -/

inductive Shape where
  | group
  | piece (pattern : String)
  | region (opening closing : String) (lasting : Lasting)

/-- A rule with an opening but nothing that ends it is a group. -/
def RuleSource.shape (s : RuleSource) : Shape :=
  match s.pattern, s.opening, s.closing, s.condition with
  | some p, _, _, _ => .piece p
  | none, some o, some c, _ => .region o c (.untilClosed s.closingLast)
  | none, some o, none, some c => .region o c .whileHolds
  | none, _, _, _ => .group

/-- The captures for a use. Those without use of their own serve where there are
none with. -/
def RuleSource.capturesFor (s : RuleSource) (use : CaptureUse) : List (String × RuleSource) :=
  let own := match use with
    | .piece => s.captures
    | .opening => s.openingCaptures
    | .closing => s.closingCaptures
    | .condition => s.conditionCaptures
  if own.isEmpty then s.captures else own

/-- The use at the end of a region. -/
def CaptureUse.atEnd : Lasting → CaptureUse
  | .untilClosed _ => .closing
  | .whileHolds => .condition

/-- A pattern to be read, with what messages call its rule, or a node to lay out. -/
inductive Step where
  | read (label source : String)
  | visit (node : Node)

namespace Node

/-- The repositories that are in sight inside. -/
def inside (n : Node) : List Repository :=
  match n.body with
  | .group _ => n.sight
  | .rule s => if s.repository.isEmpty then n.sight else .of n.address s.repository :: n.sight

def innerLabel (n : Node) : String :=
  match n.body with
  | .group _ => n.label
  | .rule s => s.name.getD n.label

def targets (n : Node) (ps : List RuleSource) : List Target :=
  Grammar.targets n.address n.inside n.innerLabel ps

def captureTargets (n : Node) (s : RuleSource) (use : CaptureUse) :
    List (Capture Address × Option Node) :=
  (s.capturesFor use).filterMap fun (key, c) =>
    captureTarget? n.address n.inside n.innerLabel use key c

/-- The captures by group, as groups that open first are outer ones. -/
def captures (n : Node) (s : RuleSource) (use : CaptureUse) : List (Capture Address) :=
  ((n.captureTargets s use).map (·.1)).mergeSort fun a b => a.group ≤ b.group

/-- The rule, with the addresses of the rules it refers to. -/
def rule (n : Node) : Rule Address String :=
  match n.body with
  | .group ps => .container ((n.targets ps).map (·.address))
  | .rule s =>
    match s.shape with
    | .group => .container ((n.targets s.patterns).map (·.address))
    | .piece p => .piece s.name p (n.captures s .piece)
    | .region opening closing lasting => .region {
        name := s.name
        contentName := s.contentName
        opening := opening
        openingCaptures := n.captures s .opening
        closing := .ofSource closing
        closingCaptures := n.captures s (.atEnd lasting)
        patterns := (n.targets s.patterns).map (·.address)
        lasting := lasting }

def visits (nodes : List (Option Node)) : List Step :=
  nodes.filterMap fun n => n.map .visit

def captureSteps (n : Node) (s : RuleSource) (use : CaptureUse) : List Step :=
  visits ((n.captureTargets s use).map (·.2))

def patternSteps (n : Node) (ps : List RuleSource) : List Step :=
  visits ((n.targets ps).map (·.node))

/-- What there is to do for the rule, in order. -/
def steps (n : Node) : List Step :=
  match n.body with
  | .group ps => n.patternSteps ps
  | .rule s =>
    match s.shape with
    | .group => n.patternSteps s.patterns
    | .piece p => .read n.innerLabel p :: n.captureSteps s .piece
    | .region opening closing lasting =>
      .read n.innerLabel opening :: n.captureSteps s .opening ++
        ((Closing.ofSource closing).fixed?.toList.map (.read n.innerLabel)) ++
        n.captureSteps s (.atEnd lasting) ++ n.patternSteps s.patterns

end Node

end Highlight.Grammar
