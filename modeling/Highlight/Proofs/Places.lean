import Highlight.Grammar.Compile

/-!
# Places in a grammar

Each rule of a grammar has a place in the text of the grammar. The rules around a place, and
the grammar itself, bring repositories along, and a name means the rule of that name in the
innermost of these that has one. What is said here does not depend on how a grammar is laid
out, where names are joined to addresses and a rule is compiled when it is first met.
-/

namespace Highlight

/-! ## Keys -/

namespace Rule

variable {ι κ μ π : Type}

def keys (r : Rule ι π) : List ι :=
  r.patterns ++ r.captures.filterMap (·.patterns)

theorem keys_renumber (f : ι → κ) (r : Rule ι π) : (r.renumber f).keys = r.keys.map f := by
  have hcaptures (cs : List (Capture ι)) :
      (cs.map (·.renumber f)).filterMap (·.patterns) = (cs.filterMap (·.patterns)).map f := by
    rw [List.filterMap_map, List.map_filterMap]
    rfl
  cases r with
  | container ps => simp [keys, renumber, patterns, captures]
  | piece name p cs => simp [keys, renumber, patterns, captures, ← hcaptures]
  | region r => simp [keys, renumber, patterns, captures, ← hcaptures]

theorem renumber_renumber (f : ι → κ) (f' : κ → μ) (r : Rule ι π) :
    (r.renumber f).renumber f' = r.renumber (f' ∘ f) := by
  have hcapture (c : Capture ι) : (c.renumber f).renumber f' = c.renumber (f' ∘ f) := by
    simp [Capture.renumber]
  cases r with
  | container ps => simp [renumber]
  | piece name p cs => simp [renumber, hcapture]
  | region r => simp [renumber, hcapture]

theorem renumber_congr {f f' : ι → κ} {r : Rule ι π} (h : ∀ k ∈ r.keys, f k = f' k) :
    r.renumber f = r.renumber f' := by
  have hps : r.patterns.map f = r.patterns.map f' :=
    List.map_congr_left fun k hk => h k (List.mem_append_left _ hk)
  have hcs (cs : List (Capture ι)) (hsub : cs ⊆ r.captures) :
      cs.map (·.renumber f) = cs.map (·.renumber f') := by
    refine List.map_congr_left fun c hc => ?_
    obtain ⟨group, name, patterns⟩ := c
    cases patterns with
    | none => rfl
    | some k =>
      have hk : k ∈ r.keys := List.mem_append_right _ (List.mem_filterMap.mpr ⟨_, hsub hc, rfl⟩)
      simp [Capture.renumber, h k hk]
  cases r with
  | container ps => exact congrArg container hps
  | piece name p cs => simp [renumber, hcs cs (List.Subset.refl _)]
  | region r =>
    have hpatterns : r.patterns.map f = r.patterns.map f' := hps
    simp [renumber, hpatterns, hcs r.openingCaptures (List.subset_append_left ..),
      hcs r.closingCaptures (List.subset_append_right ..)]

end Rule

namespace Grammar

/-! ## Places -/

/-- Where a rule stands in a grammar. -/
inductive Place where
  | top
  /-- The rule of this name that a rule, or the grammar, brings along. -/
  | named (owner : Place) (name : String)
  | inner (owner : Place) (slot : Slot)
  deriving DecidableEq, Repr

def Place.isCapture : Place → Bool
  | inner _ (.capture _ _) => true
  | _ => false

def Place.address : Place → Address
  | top => .root
  | named owner name => (Repository.of owner.address []).addressOf name
  | inner owner slot => .inner owner.address slot

abbrev Entries := List (String × RuleSource)

structure Site where
  body : Body
  repository : Entries

def Body.patterns : Body → List RuleSource
  | group ps => ps
  | rule s => s.patterns

namespace Site

/-- A named rule that only stands for another one brings nothing along. -/
def ofEntry (s : RuleSource) : Site :=
  if s.reference.isSome then ⟨.group [s], []⟩ else ⟨.rule s, s.repository⟩

def named? (site : Site) (name : String) : Option Site :=
  (site.repository.lookup name).map ofEntry

def pattern? (site : Site) (index : Nat) : Option Site :=
  match site.body.patterns[index]? with
  | some s => if s.disabled = false ∧ s.reference = none then some ⟨.rule s, s.repository⟩ else none
  | none => none

def capture? (site : Site) (use : CaptureUse) (key : String) : Option Site :=
  match site.body with
  | .group _ => none
  | .rule s => ((s.capturesFor use).find? fun e => e.1 = key ∧ e.2.patterns.isEmpty = false).map
      fun e => ⟨.group e.2.patterns, e.2.repository⟩

end Site

variable (g : GrammarSource)

namespace GrammarSource

def site? : Place → Option Site
  | .top => some ⟨.group g.patterns, g.repository⟩
  | .named owner name => (site? owner).bind (·.named? name)
  | .inner owner (.pattern index) => (site? owner).bind (·.pattern? index)
  | .inner owner (.capture use key) => (site? owner).bind (·.capture? use key)

def own (p : Place) : List (Place × Entries) :=
  (g.site? p).toList.map fun site => (p, site.repository)

/-- The repositories of the rules around a place, with the place itself, innermost first. -/
def repositories : Place → List (Place × Entries)
  | .top => g.own .top
  | .named owner name => g.own (.named owner name) ++ repositories owner
  | .inner owner slot => g.own (.inner owner slot) ++ repositories owner

end GrammarSource

def findIn (name : String) : List (Place × Entries) → Option Place
  | [] => none
  | (owner, entries) :: outer =>
    if (entries.lookup name).isSome then some (.named owner name) else findIn name outer

namespace GrammarSource

def meaning? (p : Place) (index : Nat) (s : RuleSource) : Option Place :=
  if s.disabled then none
  else match s.reference with
    | some reference =>
      if reference = "$self" ∨ reference = "$base" then some .top
      else match reference.toList with
        | '#' :: name => findIn (String.ofList name) (g.repositories p)
        | _ => none
    | none => some (.inner p (.pattern index))

def meanings (p : Place) (ps : List RuleSource) : List Place :=
  ps.zipIdx.filterMap fun (s, index) => g.meaning? p index s

end GrammarSource

def Place.capture? (p : Place) (use : CaptureUse) (key : String) (c : RuleSource) : Option (Capture Place) :=
  (Text.number? key.toList).map fun group =>
    ⟨group, c.name, if c.patterns.isEmpty then none else some (.inner p (.capture use key))⟩

def Place.captures (p : Place) (s : RuleSource) (use : CaptureUse) : List (Capture Place) :=
  ((s.capturesFor use).filterMap fun (key, c) => p.capture? use key c).mergeSort fun a b => a.group ≤ b.group

def Body.toRule {ι : Type} (targets : List RuleSource → List ι)
    (captures : RuleSource → CaptureUse → List (Capture ι)) : Body → Rule ι String
  | group ps => .container (targets ps)
  | rule s =>
    match s.shape with
    | .group => .container (targets s.patterns)
    | .piece p => .piece s.name p (captures s .piece)
    | .region opening closing lasting => .region {
        name := s.name
        contentName := s.contentName
        opening := opening
        openingCaptures := captures s .opening
        closing := .ofSource closing
        closingCaptures := captures s (.atEnd lasting)
        patterns := targets s.patterns
        lasting := lasting }

def GrammarSource.ruleAt (p : Place) (b : Body) : Rule Place String :=
  b.toRule (g.meanings p) p.captures

theorem Node.rule_eq (n : Node) :
    n.rule = n.body.toRule (fun ps => (n.targets ps).map (·.address)) n.captures := by
  unfold Node.rule Body.toRule
  cases n.body with
  | group ps => rfl
  | rule s => rfl

theorem Body.renumber_toRule {ι κ : Type} (f : ι → κ) (targets : List RuleSource → List ι)
    (captures : RuleSource → CaptureUse → List (Capture ι)) (b : Body) :
    (b.toRule targets captures).renumber f =
      b.toRule (fun ps => (targets ps).map f) (fun s use => (captures s use).map (·.renumber f)) := by
  cases b with
  | group ps => rfl
  | rule s =>
    unfold toRule
    simp only
    split
    · rfl
    · rfl
    · rfl

end Grammar

end Highlight
