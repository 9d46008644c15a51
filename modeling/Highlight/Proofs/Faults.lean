import Highlight.Proofs.InPlace
import Highlight.Proofs.PlainNames

/-!
# What a grammar fails for

However the rules of a grammar lead on to one another, it is compiled in the end. It fails if it
has no scope. Otherwise only a pattern can make it fail that one of its rules gives, in whatever
list, repository or capture this rule is held, and that cannot be read.
-/

namespace Highlight.Grammar

variable {engine : Engine} {g : GrammarSource} {s : RuleSource} {n : Node} {scopeName : String}

inductive GrammarSource.Holds (g : GrammarSource) : RuleSource → Prop
  | pattern {s : RuleSource} : s ∈ g.patterns → Holds g s
  | named {e : String × RuleSource} : e ∈ g.repository → Holds g e.2
  | patternIn {s t : RuleSource} : Holds g s → t ∈ s.patterns → Holds g t
  | namedIn {s : RuleSource} {e : String × RuleSource} : Holds g s → e ∈ s.repository → Holds g e.2
  | capturedIn {s : RuleSource} {e : String × RuleSource} : Holds g s →
    e ∈ s.captures ++ s.openingCaptures ++ s.closingCaptures ++ s.conditionCaptures → Holds g e.2

/-- A pattern that can be read on its own: one at the end of a region must not refer back. -/
inductive RuleSource.Gives (s : RuleSource) (source : String) : Prop
  | piece : s.pattern = some source → Gives s source
  | opening : s.opening = some source → Gives s source
  | closing : s.closing = some source → Literal.hasBackReferences source = false → Gives s source
  | condition : s.condition = some source → Literal.hasBackReferences source = false → Gives s source

def GrammarSource.Gives (g : GrammarSource) (source : String) : Prop :=
  ∃ s, g.Holds s ∧ s.Gives source

/-! ## Rules at their places -/

theorem RuleSource.mem_capturesFor {use : CaptureUse} {e : String × RuleSource} (h : e ∈ s.capturesFor use) :
    e ∈ s.captures ++ s.openingCaptures ++ s.closingCaptures ++ s.conditionCaptures := by
  unfold capturesFor at h
  cases use with
  | piece => simp only at h; split at h <;> simp [h]
  | opening => simp only at h; split at h <;> simp [h]
  | closing => simp only at h; split at h <;> simp [h]
  | condition => simp only at h; split at h <;> simp [h]

structure Site.HeldIn (g : GrammarSource) (site : Site) : Prop where
  patterns : ∀ s ∈ site.body.patterns, g.Holds s
  rule : ∀ s, site.body = .rule s → g.Holds s
  repository : ∀ e ∈ site.repository, g.Holds e.2

namespace Site.HeldIn

theorem of_holds (h : g.Holds s) : HeldIn g ⟨.rule s, s.repository⟩ where
  patterns _ ht := h.patternIn ht
  rule t ht := by
    cases ht
    exact h
  repository _ he := h.namedIn he

theorem ofEntry (h : g.Holds s) : HeldIn g (.ofEntry s) := by
  unfold Site.ofEntry
  by_cases href : s.reference.isSome = true
  · rw [if_pos href]
    refine ⟨?_, ?_, List.forall_mem_nil _⟩
    · exact List.forall_mem_singleton.mpr h
    · intro t ht
      cases ht
  · rw [if_neg href]
    exact of_holds h

theorem of_site? {p : Place} {site : Site} (h : g.site? p = some site) : site.HeldIn g := by
  refine GrammarSource.of_site? (S := HeldIn g) ?_ ?_ ?_ ?_ h
  · refine ⟨fun s hs => .pattern hs, ?_, fun e he => .named he⟩
    intro s hs
    cases hs
  · intro site hsite e he
    exact ofEntry (hsite.repository e he)
  · intro site hsite s hs
    exact of_holds (hsite.patterns s hs)
  · intro site hsite s hb use e he
    have hcapture : g.Holds e.2 := (hsite.rule s hb).capturedIn (RuleSource.mem_capturesFor he)
    refine ⟨fun t ht => hcapture.patternIn ht, ?_, fun e' he' => hcapture.namedIn he'⟩
    intro t ht
    cases ht

end Site.HeldIn

/-! ## Patterns of rules -/

theorem RuleSource.of_shape_region {opening closing : String} {lasting : Lasting} (h : s.shape = .region opening closing lasting) :
    s.opening = some opening ∧ (s.closing = some closing ∨ s.condition = some closing) := by
  unfold shape at h
  split at h
  · cases h
  · rename_i ho hc
    cases h
    exact ⟨ho, .inl hc⟩
  · rename_i ho _ hw
    cases h
    exact ⟨ho, .inr hw⟩
  · cases h

theorem RuleSource.of_shape_piece {p : String} (h : s.shape = .piece p) : s.pattern = some p := by
  unfold shape at h
  split at h
  · rename_i hp
    cases h
    exact hp
  · cases h
  · cases h
  · cases h

theorem fixed?_ofSource {source closing : String} (h : source ∈ (Closing.ofSource closing).fixed?.toList) :
    source = closing ∧ Literal.hasBackReferences closing = false := by
  unfold Closing.ofSource at h
  by_cases hback : Literal.hasBackReferences closing = true
  · rw [if_pos hback] at h
    cases h
  · rw [if_neg hback] at h
    exact ⟨List.mem_singleton.mp h, by simpa using hback⟩

theorem Node.gives_of_source {source : String} (h : source ∈ n.rule.sources) : ∃ s, n.body = .rule s ∧ s.Gives source := by
  unfold rule at h
  cases hb : n.body with
  | group ps =>
    rw [hb] at h
    cases h
  | rule s =>
    refine ⟨s, rfl, ?_⟩
    simp only [hb] at h
    cases hs : s.shape with
    | group =>
      rw [hs] at h
      cases h
    | piece p =>
      rw [hs] at h
      rw [List.mem_singleton.mp h]
      exact .piece (RuleSource.of_shape_piece hs)
    | region opening closing lasting =>
      rw [hs] at h
      obtain ⟨hopening, hclosing⟩ := RuleSource.of_shape_region hs
      rcases List.mem_cons.mp h with rfl | h
      · exact .opening hopening
      · obtain ⟨rfl, hback⟩ := fixed?_ofSource h
        rcases hclosing with hclosing | hclosing
        · exact .closing hclosing hback
        · exact .condition hclosing hback

namespace GrammarSource

theorem gives_of_mem_draft {source : String} (hn : n ∈ (g.draft scopeName).nodes) (h : source ∈ n.rule.sources) : g.Gives source := by
  obtain ⟨s, hb, hs⟩ := Node.gives_of_source h
  obtain ⟨p, hfits⟩ := fits_of_mem_draft hn
  obtain ⟨site, hsite, hbody⟩ := hfits.site
  exact ⟨s, (Site.HeldIn.of_site? hsite).rule s (hbody.trans hb), hs⟩

theorem gives_of_mem_reads {x : String × String} (hx : x ∈ (g.draft scopeName).reads) : g.Gives x.2 := by
  obtain ⟨r, hr, hs⟩ := source_of_mem_reads hx
  obtain ⟨n, hn, rfl⟩ := List.mem_map.mp hr
  rw [Rule.sources_renumber] at hs
  exact gives_of_mem_draft hn hs

end GrammarSource

/-! ## Faults -/

/-- A grammar with a scope fails for a pattern that it gives, if it fails. -/
theorem error_of_compile (hname : g.scopeName = some scopeName) {e : Error} (h : compile engine g = .error e) :
    ∃ rule pattern error, e = .invalidPattern rule pattern error ∧ g.Gives pattern ∧ engine.read pattern = .error error := by
  rcases compile_of_outcome hname (outcome_root (Nat.lt_succ_self _)) with ⟨G, hG, _⟩ | ⟨label, source, error, hread, herror, hG, _⟩
  · rw [hG] at h
    cases h
  · rw [hG] at h
    cases h
    exact ⟨label, source, error, rfl, GrammarSource.gives_of_mem_reads hread, herror⟩

/-- Compiling ends, and a grammar that has a scope fails only for a pattern of one of its rules
that cannot be read. -/
theorem compile_faults (g : GrammarSource) :
    (∃ depth, ∀ d, depth ≤ d →
      (compileWithin engine d g).map (·.rules) = ((compile engine g).mapError .fault).map fun G => G.rules.toList.map some) ∧
    (compile engine g = .error .missingScopeName ↔ g.scopeName = none) ∧
    (g.scopeName.isSome → (∀ source, g.Gives source → Readable engine source) → ∃ G, compile engine g = .ok G) ∧
    ∀ e, compile engine g = .error e → e ≠ .missingScopeName → ∃ rule pattern error, e = .invalidPattern rule pattern error ∧
      g.Gives pattern ∧ engine.read pattern = .error error := by
  refine ⟨exists_depth g, ⟨fun h => ?_, compile_of_scopeless⟩, fun hsome hread => ?_, fun e he hne => ?_⟩
  · cases hname : g.scopeName with
    | none => rfl
    | some scopeName =>
      obtain ⟨_, _, _, he, _⟩ := error_of_compile hname h
      cases he
  · obtain ⟨scopeName, hname⟩ := Option.isSome_iff_exists.mp hsome
    cases hG : compile engine g with
    | ok G => exact ⟨G, rfl⟩
    | error e =>
      obtain ⟨_, pattern, error, _, hgives, herror⟩ := error_of_compile hname hG
      obtain ⟨p, hp⟩ := hread pattern hgives
      rw [hp] at herror
      cases herror
  · cases hname : g.scopeName with
    | none =>
      rw [compile_of_scopeless hname] at he
      cases he
      exact absurd rfl hne
    | some scopeName => exact error_of_compile hname he

/-! ## A pattern that cannot be read, in a rule that holds itself -/

namespace Broken

def word : RuleSource :=
  { RuleSource.empty with
    name := some "word"
    pattern := some "a"
    captures := [("1", { RuleSource.empty with
      patterns := [{ RuleSource.empty with reference := some "#word" }, { RuleSource.empty with pattern := some "(" }] })] }

def source : GrammarSource where
  name := none
  scopeName := some "s"
  patterns := [{ RuleSource.empty with reference := some "#word" }]
  repository := [("word", word)]

theorem compile_source : compile .backtracking source = .error (.invalidPattern "word" "(" .unclosedGroup) := by cbv

end Broken

theorem compile_faults_broken : compile .backtracking Broken.source = .error (.invalidPattern "word" "(" .unclosedGroup) ∧
    Broken.source.Gives "(" ∧
    ∃ depth, ∀ d, depth ≤ d → (compileWithin .backtracking d Broken.source).map (·.rules) =
      .error (.fault (.invalidPattern "word" "(" .unclosedGroup)) := by
  obtain ⟨⟨depth, hdepth⟩, _, _, hfault⟩ := compile_faults Broken.source
  obtain ⟨_, _, _, he, hgives, _⟩ := hfault _ Broken.compile_source (by simp)
  cases he
  refine ⟨Broken.compile_source, hgives, depth, fun d hd => ?_⟩
  rw [hdepth d hd, Broken.compile_source]
  rfl

end Highlight.Grammar
