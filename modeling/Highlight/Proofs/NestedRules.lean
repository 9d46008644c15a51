import Highlight.Proofs.LiteralPatterns
import Highlight.Proofs.Nesting
import Highlight.Proofs.SelfIncluding

/-!
# Rules that nest

A rule that lists nothing but itself, with texts for delimiters, is a region of a nest wherever
it is opened. So its regions follow the count of the delimiters, over any number of lines, and
each byte has the scopes of as many of them as are open around it.
-/

namespace Highlight

def Grammar.RuleSource.nest (rule : Grammar.RuleSource) (D : Delimiters) (s : State) (f : Frame) : Nest where
  toDelimiters := D
  words := Scope.ofTemplate rule.name [some D.opening]
  openingWords := rule.ofWhole .opening [some D.opening]
  closingWords := rule.ofWhole .closing [some D.closing]
  outer := s
  outermost := f

theorem Grammar.RuleSource.scopes_nest_one (rule : Grammar.RuleSource) (D : Delimiters) (s : State) (f : Frame) :
    (rule.nest D s f).scopes 1 = s.scopes ++ Scope.ofTemplate rule.name [some D.opening] := by
  unfold Nest.scopes
  rw [List.replicate_one, List.flatten_singleton]
  rfl

theorem Grammar.SelfIncluding.of_nest {G : Grammar} {engine : Engine} {id : Nat} {r : Region Nat Pattern}
    {rule : Grammar.RuleSource} {D : Delimiters} (hself : G.SelfIncluding engine id r rule D.opening D.closing)
    (hm : engine.ReadsLiterals) (hr : G.rules[id]? = some (.region r)) {q : Pattern} (hfixed : r.closing = .fixed q)
    (hq : engine.read (Literal.escape D.closing) = .ok q) {s : State} (hs : s.Unconditional) {f : Frame}
    (hrule : f.rule = id) (hregion : f.region = r) (hclosing : f.closing = q) : (rule.nest D s f).Of ⟨G, engine⟩ := by
  subst hrule hregion hclosing
  exact {
    rule := hr
    candidates := hself.candidates
    lasting := hself.lasting
    closing := hfixed
    contentName := hself.contentName
    looksForOpening := hm.looksFor_bare hself.opening
    looksForClosing := hm.looksFor_bare hq
    openingCaptures := hself.openingCaptures
    closingCaptures := hself.closingCaptures
    words := congrArg (Scope.ofTemplate · _) hself.name.symm
    openingWords := (hself.openingWords _).symm
    closingWords := (hself.closingWords _).symm
    unconditional := hs }

namespace Highlighter

open Grammar (GrammarSource RuleSource)

variable {h : Highlighter} {lines : List (List Char)} {k i id : Nat} {l : List Char} {s : State} {p p' : Painting}
  {m : Match} {f : Frame}

/-- The regions of a nest that was opened on the line `k`, by the match `m`, are those that the
count of the delimiters says, from the end of the match on until all are closed. -/
structure FollowsCount (h : Highlighter) (source : String) (lines : List (List Char)) (tokens : TokenizedText) (N : Nest)
    (k : Nat) (l : List Char) (m : Match) (s : State) (p : Painting) : Prop where
  counted : ∀ {depth frames}, N.Tower depth frames → frames.countP (fun f => f.rule = N.outermost.rule) = depth
  -- no point of the run before the last closing delimiter is missed, and every count is come to
  follows : ∀ {pt}, Relation.ReflTransGen (h.Advances lines) (.scan k m.span.stop s p) pt →
    ∃ n, N.Counts lines ⟨k, m.span.stop, 1⟩ n ∧ (N.At n pt ∨ n.depth = 0 ∧ ∃ closed, N.At n closed ∧
      Relation.ReflTransGen (h.Advances lines) (.scan k m.span.stop s p) closed ∧
      Relation.ReflTransGen (h.Advances lines) closed pt)
  comes : ∀ {n}, N.Counts lines ⟨k, m.span.stop, 1⟩ n → ∃ s' p',
    Relation.ReflTransGen (h.Advances lines) (.scan k m.span.stop s p) (.scan n.line n.position s' p') ∧
      N.Tower n.depth s'.frames
  opened : ∀ {b}, Text.offsetAt l m.span.start ≤ b → b < Text.offsetAt l m.span.stop →
    tokens.scopesAt k b = N.delimiterScopes 0 .opening
  -- a byte is read from some count on, or all regions have been closed before it
  read : ∀ {a l z b}, lines[a]? = some l → z < l.length → Count.UpTo ⟨k, m.span.stop, 1⟩ a z →
    Text.offsetAt l z ≤ b → b < Text.offsetAt l (z + 1) →
    ∃ n, N.Counts lines ⟨k, m.span.stop, 1⟩ n ∧ n.UpTo a z ∧ (n.depth = 0 ∨
      0 < n.depth ∧ n.line = a ∧ z < N.stopOf l n.position ∧ tokens.scopesAt a b = N.scopesFrom n l z)
  stays : ∀ {n}, N.Counts lines ⟨k, m.span.stop, 1⟩ n → 0 < n.depth → N.next? lines n = none →
    ∃ s', h.stateAfter source = .ok s' ∧ N.Tower n.depth s'.frames

theorem followsCount {N : Nest} (hN : N.Of h) {source : String} {tokens : TokenizedText}
    (htokens : h.tokenize source true = .ok tokens) (hT : N.Tower 1 s.frames)
    (hnone : ∀ f ∈ N.outer.frames, f.rule ≠ N.outermost.rule)
    (hreach : h.Reaches ((Text.lines source).map String.toList) (.scan k m.span.stop s p))
    (hopened : ∀ {b}, Text.offsetAt l m.span.start ≤ b → b < Text.offsetAt l m.span.stop →
      tokens.scopesAt k b = N.delimiterScopes 0 .opening) :
    h.FollowsCount source ((Text.lines source).map String.toList) tokens N k l m s p where
  counted hT := hT.countP hnone
  follows hrun := Nest.follows hN (.scan hT) hrun
  comes hcounts := Nest.exists_scan_of_counts hN (show N.Tower (Count.mk k m.span.stop 1).depth s.frames from hT) hcounts
  opened := hopened
  read {a l z b} hl hz hup h1 h2 := by
    obtain ⟨n, hcounts, hn, hzero | ⟨hpos, rfl, hstop⟩⟩ := Delimiters.exists_count (D := N.toDelimiters) hl hz _ hup
    · exact ⟨n, hcounts, hn, .inl hzero⟩
    · obtain ⟨s', p', hrun, hT'⟩ := Nest.exists_scan_of_counts (p := p) hN hT hcounts
      have hposition : n.position ≤ z := hn.elim (fun hlt => absurd hlt (Nat.lt_irrefl _)) (·.2)
      exact ⟨n, hcounts, hn, .inr ⟨hpos, rfl, hstop,
        Nest.scopesAt_of_count hN htokens hl hT' hpos (hreach.trans hrun) hposition hstop hz h1 h2⟩⟩
  stays {n} hcounts hpos hnext := by
    obtain ⟨s', p', hrun, hT'⟩ := Nest.exists_scan_of_counts (p := p) hN hT hcounts
    obtain ⟨_, _, l', _, hl', _⟩ := begun_of_reaches (hreach.trans hrun)
    obtain ⟨e, he, _, _, hend⟩ := scan_of_reaches htokens hl' (hreach.trans hrun)
    obtain ⟨a, j, depth⟩ := n
    cases depth with
    | zero => cases hpos
    | succ depth =>
      cases hf : N.first? l' j with
      | some dx =>
        rw [Delimiters.next?_of_some hl' hf] at hnext
        cases hnext
      | none =>
        rw [Delimiters.next?_of_none hl' hf] at hnext
        have hlast : ¬a + 1 < ((Text.lines source).map String.toList).length := fun hlt => by
          rw [if_pos hlt] at hnext
          cases hnext
        have hlength := (List.getElem?_eq_some_iff.mp hl').1
        rw [scan_of_done (Nest.step_of_none hN hT' hf), Except.ok.injEq] at he
        refine ⟨s', ?_, hT'⟩
        rw [hend (by simp only at hlength ⊢; omega), ← he]

/-- Regions of a rule that lists nothing but itself nest as their delimiters are counted. -/
theorem nested_regions_follow_count {engine : Engine} {src : GrammarSource} {G : Grammar}
    (hG : Grammar.compile engine src = .ok G) (hm : engine.ReadsLiterals) {D : Delimiters} {name : String}
    {rule : RuleSource} (hrule : src.Nests name rule D.opening D.closing) {source : String} {tokens : TokenizedText}
    (htokens : tokenize ⟨G, engine⟩ source true = .ok tokens)
    (he : Enters ⟨G, engine⟩ ((Text.lines source).map String.toList) k i l s p (src.numberOf G name) m f p')
    (hs : s.Unconditional) (hnone : ∀ f ∈ s.frames, f.rule ≠ src.numberOf G name) :
    FollowsCount ⟨G, engine⟩ source ((Text.lines source).map String.toList) tokens (rule.nest D s f) k l m (s.push f) p' := by
  obtain ⟨r, hr⟩ := he.exists_region
  have hself := hrule.region hG hr
  obtain ⟨q, hfixed, hq⟩ := hself.closing
  have hopening := hm.looksFor_bare hself.opening
  obtain ⟨x, hx, rfl⟩ := he.eq_whole hr hopening
  obtain ⟨closing, hclosing, hf⟩ := he.frame_eq hr
  rw [hfixed] at hclosing
  cases hclosing
  have htexts := Match.texts_whole hx D.opening_ne
  have hnamed : s.scopes ++ Scope.ofTemplate r.name ((Match.whole (Text.spanAt D.opening x)).texts (Text.withEnd l)) =
      (rule.nest D s f).scopes 1 := by
    rw [hself.name, htexts, RuleSource.scopes_nest_one]
  have hT : (rule.nest D s f).Tower 1 (s.push f).frames := by
    refine .region rfl rfl rfl (hf ▸ hnamed) ?_ (.outer rfl)
    rw [← hnamed, hf]
    show s.scopes ++ _ ++ Scope.ofTemplate r.contentName _ = _
    rw [hself.contentName]
    exact List.append_nil _
  have hof : (rule.nest D s f).Of ⟨G, engine⟩ :=
    hself.of_nest hm hr hfixed hq hs (congrArg Frame.rule hf) (congrArg Frame.region hf) (congrArg Frame.closing hf)
  have hrules : ∀ f' ∈ s.frames, f'.rule ≠ f.rule := by
    rw [hf]
    exact hnone
  refine followsCount hof htokens hT hrules he.reaches_inside fun {b} h1 h2 => ?_
  have hspan : (Text.spanAt D.opening x).start < (Text.spanAt D.opening x).stop :=
    Nat.lt_add_of_pos_right (Delimiters.length_text_pos .opening)
  rw [he.scopesAt_whole htokens hspan hr hself.openingCaptures hfixed h1 h2, hnamed, htexts, hself.openingWords]
  rfl

end Highlighter

/-! ## A comment in a comment -/

namespace Commenting

open Grammar (GrammarSource RuleSource)

def rule : RuleSource :=
  { RuleSource.empty with
    opening := some "/\\*"
    closing := some "\\*/"
    name := some "comment"
    captures := [("0", { RuleSource.empty with name := some "mark" })]
    patterns := [{ RuleSource.empty with reference := some "#comment" }] }

def source : GrammarSource where
  name := none
  scopeName := some "s"
  patterns := [{ RuleSource.empty with reference := some "#comment" }]
  repository := [("comment", rule)]

def delimiters : Delimiters where
  opening := "/*"
  closing := "*/"
  opening_ne := by decide
  closing_ne := by decide
  opening_line := by decide
  closing_line := by decide

theorem nests_rule : source.Nests "comment" rule delimiters.opening delimiters.closing where
  entry := rfl
  stroke := by decide
  reference := rfl
  pattern := rfl
  opening := rfl
  closing := rfl
  contentName := rfl
  inside := ⟨_, rfl, rfl, rfl⟩
  repository := rfl
  closingFirst := rfl
  captures := by
    intro use e he
    cases use <;>
    · cases List.mem_singleton.mp he
      rfl

def region : Region Nat Pattern where
  name := some "comment"
  contentName := none
  opening := ⟨"/\\*", .text ['/', '*'], 0⟩
  openingCaptures := [⟨0, some "mark", none⟩]
  closing := .fixed ⟨"\\*/", .text ['*', '/'], 0⟩
  closingCaptures := [⟨0, some "mark", none⟩]
  patterns := [1]
  lasting := .untilClosed false

def grammar : Grammar where
  name := none
  scopeName := "s"
  rules := #[.container [1], .region region]
  candidates := #[[1], [1]]
  candidates_eq := by cbv

theorem compile_source : Grammar.compile .backtracking source = .ok grammar := by cbv

theorem numberOf_comment : source.numberOf grammar "comment" = 1 := by cbv

def highlighter : Highlighter :=
  ⟨grammar, .backtracking⟩

def frame (i : Option Nat) (outer : List String) : Frame :=
  ⟨1, region, ⟨"\\*/", .text ['*', '/'], 0⟩, outer, outer ++ ["comment"], outer ++ ["comment"], i⟩

def once : State :=
  ⟨0, ["s"], [frame (some 0) ["s"]]⟩

def twice : State :=
  ⟨0, ["s"], [frame (some 2) ["s", "comment"], frame (some 0) ["s"]]⟩

def begun : Painting :=
  ⟨4, [⟨⟨0, 2⟩, ["s", "comment", "mark"]⟩]⟩

def opened : Painting :=
  ⟨4, [⟨⟨2, 4⟩, ["s", "comment", "comment", "mark"]⟩, ⟨⟨0, 2⟩, ["s", "comment", "mark"]⟩]⟩

theorem step_open : highlighter.step 1 (highlighter.againIn 0 ['/', '*', '/', '*']) (Text.withEnd ['/', '*', '/', '*']) 0
    (.start 0 ["s"]) (.blank 4) = .ok (.next 2 once begun) := by cbv

theorem paintLine_open : highlighter.paintLine 1 ['/', '*', '/', '*'] (.start 0 ["s"]) = .ok (twice, opened) := by
  have hopen : highlighter.step 1 (highlighter.againIn 0 ['/', '*', '/', '*']) (Text.withEnd ['/', '*', '/', '*']) 2 once
      begun = .ok (.next 4 twice opened) := by cbv
  have hrest : highlighter.step 1 (highlighter.againIn 0 ['/', '*', '/', '*']) (Text.withEnd ['/', '*', '/', '*']) 4 twice
      opened = .ok (.done twice opened) := by cbv
  exact (Highlighter.scan_of_next step_open).trans ((Highlighter.scan_of_next hopen).trans (Highlighter.scan_of_done hrest))

theorem paintLine_close : highlighter.paintLine 2 ['*', '/'] twice =
    .ok (once.atLineStart, ⟨2, [⟨⟨0, 2⟩, ["s", "comment", "comment", "mark"]⟩]⟩) := by
  have hclose : highlighter.step 2 (highlighter.againIn 1 ['*', '/']) (Text.withEnd ['*', '/']) 0 twice.atLineStart
      (.blank 2) = .ok (.next 2 once.atLineStart ⟨2, [⟨⟨0, 2⟩, ["s", "comment", "comment", "mark"]⟩]⟩) := by cbv
  have hrest : highlighter.step 2 (highlighter.againIn 1 ['*', '/']) (Text.withEnd ['*', '/']) 2 once.atLineStart
      ⟨2, [⟨⟨0, 2⟩, ["s", "comment", "comment", "mark"]⟩]⟩ =
      .ok (.done once.atLineStart ⟨2, [⟨⟨0, 2⟩, ["s", "comment", "comment", "mark"]⟩]⟩) := by cbv
  exact (Highlighter.scan_of_next hclose).trans (Highlighter.scan_of_done hrest)

theorem lines_text : (Text.lines "/*/*\n*/").map String.toList = [['/', '*', '/', '*'], ['*', '/']] := by decide

def tokens : TokenizedText where
  lines := [
    [⟨0, "/*", some [⟨"/*", ["s", "comment", "mark"]⟩]⟩,
      ⟨2, "/*", some [⟨"/*", ["s", "comment", "comment", "mark"]⟩]⟩],
    [⟨5, "*/", some [⟨"*/", ["s", "comment", "comment", "mark"]⟩]⟩]]

theorem tokenize_text : highlighter.tokenize "/*/*\n*/" true = .ok tokens := by
  rw [Highlighter.tokenize_eq, lines_text]
  show (highlighter.paintLines 1 (.start 0 ["s"]) _).map _ = _
  rw [Highlighter.paintLines_cons_of_ok paintLine_open, Highlighter.paintLines_cons_of_ok paintLine_close]
  rfl

theorem enters : highlighter.Enters [['/', '*', '/', '*'], ['*', '/']] 0 0 ['/', '*', '/', '*'] (.start 0 ["s"]) (.blank 4)
    (source.numberOf grammar "comment") (.whole ⟨0, 2⟩) (frame (some 0) ["s"]) begun where
  line := rfl
  reaches := by
    have hcheck : highlighter.checkConditions (highlighter.againIn 0 ['/', '*', '/', '*'])
        (Text.withEnd ['/', '*', '/', '*']) 0 (.blank 4) (State.start 0 ["s"]).frames.reverse = .ok ([], 0, .blank 4) := rfl
    have hstart := Highlighter.Advances.check (k := 0) (show [['/', '*', '/', '*'], ['*', '/']][0]? = some _ from rfl) hcheck
    exact .single hstart
  next := ⟨region, by
    rw [numberOf_comment]
    cbv⟩
  step := step_open

end Commenting

/-- Two comments are opened, and on the next line the inner one is closed. -/
theorem comment_in_comment_follows_count :
    Commenting.highlighter.tokenize "/*/*\n*/" true = .ok Commenting.tokens ∧
      Commenting.highlighter.FollowsCount "/*/*\n*/" [['/', '*', '/', '*'], ['*', '/']] Commenting.tokens
        (Commenting.rule.nest Commenting.delimiters (.start 0 ["s"]) (Commenting.frame (some 0) ["s"])) 0
        ['/', '*', '/', '*'] (.whole ⟨0, 2⟩) Commenting.once Commenting.begun := by
  refine ⟨Commenting.tokenize_text, ?_⟩
  have henters := Commenting.enters
  rw [← Commenting.lines_text] at henters
  have hcount := Highlighter.nested_regions_follow_count Commenting.compile_source Engine.readsLiterals_backtracking
    Commenting.nests_rule Commenting.tokenize_text henters (List.forall_mem_nil _) (List.forall_mem_nil _)
  rw [Commenting.lines_text] at hcount
  exact hcount

end Highlight
