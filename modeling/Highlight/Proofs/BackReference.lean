import Highlight.Proofs.Delimiters
import Highlight.Proofs.LiteralPatterns

/-!
# Regions that end with what they began with

Where the end of a region is a reference to a group of its beginning, it is the text of the
group that is looked for, whatever characters are in it. As no rules apply inside, nothing else
comes next: the region is closed where the text stands first, after the opening on its line or
from the start on of a later line, and until then nothing changes.
-/

namespace Highlight

namespace State

theorem scopes_atLineStart (s : State) : s.atLineStart.scopes = s.scopes := by
  unfold scopes atLineStart
  cases s.frames with
  | nil => rfl
  | cons f below => rfl

structure Awaits (s : State) (h : Highlighter) (t : String) (captured : Nat → List (Option Span)) : Prop where
  top : ∃ f below closingLast, s.frames = f :: below ∧ f.region.lasting = .untilClosed closingLast ∧
    h.grammar.candidatesIn f.rule = [] ∧ h.engine.LooksFor f.closing t captured
  unconditional : s.Unconditional

variable {s : State} {h : Highlighter} {t : String} {captured : Nat → List (Option Span)}

theorem Awaits.atLineStart (hs : s.Awaits h t captured) : s.atLineStart.Awaits h t captured where
  top := by
    obtain ⟨f, below, closingLast, hf, hlasting, hnone, hclosing⟩ := hs.top
    refine ⟨{ f with enteredAt := none }, below.map fun f => { f with enteredAt := none }, closingLast, ?_, hlasting,
      hnone, hclosing⟩
    unfold State.atLineStart
    rw [hf, List.map_cons]
  unconditional := by
    intro f hf
    obtain ⟨f', hf', rfl⟩ := List.mem_map.mp hf
    exact hs.unconditional f' hf'

theorem Awaits.choices (hs : s.Awaits h t captured) : ∃ f below, s.frames = f :: below ∧
    s.choices h.grammar = [(.leave f below, f.closing)] ∧ h.engine.LooksFor f.closing t captured := by
  obtain ⟨f, below, closingLast, hf, hlasting, hnone, hclosing⟩ := hs.top
  refine ⟨f, below, hf, ?_, hclosing⟩
  have hstarts : s.starts h.grammar = [] := by
    unfold State.starts State.rule
    rw [hf, hnone]
    rfl
  unfold State.choices
  simp only [hf, hlasting, hstarts]
  cases closingLast with
  | false => rfl
  | true => rfl

theorem Awaits.next_eq_none (hs : s.Awaits h t captured) {text : Array Char} {i : Nat} (hm : Text.Missing t text i) :
    h.next text i s = none := by
  obtain ⟨f, below, _, hchoices, hclosing⟩ := hs.choices
  refine Highlighter.next_eq_none fun j hj => ?_
  rw [hchoices, Highlighter.choiceAt_cons_of_not hclosing (hm j hj)]
  rfl

theorem Awaits.next_eq_leave (hs : s.Awaits h t captured) (ht : t ≠ "") {text : Array Char} {i x : Nat}
    (hx : Text.StandsFirst t text i x) : ∃ f below, s.frames = f :: below ∧
      h.next text i s = some (.leave f below, ⟨Text.spanAt t x, captured x⟩) := by
  obtain ⟨f, below, hf, hchoices, hclosing⟩ := hs.choices
  refine ⟨f, below, hf, ?_⟩
  have hsize := hx.stands.le_size ht
  refine Highlighter.next_of_first hx.le (by omega) ?_ fun j h1 h2 => ?_
  · rw [hchoices, Highlighter.choiceAt_cons_of_stands hclosing ht hx.stands]
  · rw [hchoices, Highlighter.choiceAt_cons_of_not hclosing (hx.first j h1 h2)]
    rfl

end State

/-! ## Waiting for a text -/

/-- Where the scan of a line goes on for a region that was opened on the line `k`, up to `stop`. -/
def startOn (k stop a : Nat) : Nat :=
  if a = k then stop else 0

def State.on (s : State) (k a : Nat) : State :=
  if a = k then s else s.atLineStart

namespace Highlighter

variable {h : Highlighter} {lines : List (List Char)} {k stop : Nat} {s : State} {p : Painting} {t : String}
  {captured : Nat → List (Option Span)}

def Absent (lines : List (List Char)) (t : String) (k stop a : Nat) : Prop :=
  ∀ b l, k ≤ b → b < a → lines[b]? = some l → Text.Missing t (Text.withEnd l) (startOn k stop b)

theorem awaits_on (hs : s.Awaits h t captured) (k a : Nat) : (s.on k a).Awaits h t captured := by
  unfold State.on
  split
  · exact hs
  · exact hs.atLineStart

theorem atLineStart_on (s : State) (k : Nat) {a : Nat} (ha : k ≤ a) : (s.on k a).atLineStart = s.on k (a + 1) := by
  unfold State.on
  rw [if_neg (by omega : ¬a + 1 = k)]
  split
  · rfl
  · unfold State.atLineStart
    simp

/-- As long as the text does not stand in a line, the run comes to the next line and nothing changes. -/
theorem comes_to_line (hs : s.Awaits h t captured) {a : Nat} (ha : k ≤ a) {l : List Char} (hl : lines[a]? = some l)
    (habsent : Absent lines t k stop a) :
    ∃ q, Relation.ReflTransGen (h.Advances lines) (.scan k stop s p) (.scan a (startOn k stop a) (s.on k a) q) := by
  induction a, ha using Nat.le_induction generalizing l with
  | base =>
    refine ⟨p, ?_⟩
    unfold startOn State.on
    rw [if_pos rfl, if_pos rfl]
  | succ a ha ih =>
    have hlt : a < lines.length := Nat.lt_of_succ_lt (List.getElem?_eq_some_iff.mp hl).1
    have hl' : lines[a]? = some lines[a] := List.getElem?_eq_getElem hlt
    obtain ⟨q, hq⟩ := ih hl' fun b l' h1 h2 hb => habsent b l' h1 (Nat.lt_succ_of_lt h2) hb
    have hawaits := awaits_on hs k a
    have hnone := hawaits.next_eq_none (habsent a _ ha (Nat.lt_succ_self a) hl')
    have hnext := advances_line (p := q) hl' hl hawaits.unconditional hnone
    rw [atLineStart_on s k ha] at hnext
    have hstart : startOn k stop (a + 1) = 0 := if_neg (by omega)
    rw [hstart]
    exact ⟨_, hq.trans hnext⟩

/-- The innermost region, opened on the line `k` up to `stop`, is closed where the text stands first
and at no other place, and until then nothing changes. -/
structure ClosedBy (h : Highlighter) (source : String) (tokens : TokenizedText) (t : String) (k stop : Nat) (s : State)
    (p : Painting) : Prop where
  waits : ∀ a l, k ≤ a → ((Text.lines source).map String.toList)[a]? = some l →
    Absent ((Text.lines source).map String.toList) t k stop a → Text.Missing t (Text.withEnd l) (startOn k stop a) →
    (∃ q, Relation.ReflTransGen (h.Advances ((Text.lines source).map String.toList)) (.scan k stop s p)
      (.scan a (startOn k stop a) (s.on k a) q)) ∧ h.next (Text.withEnd l) (startOn k stop a) (s.on k a) = none ∧
    ∀ b, Text.offsetAt l (startOn k stop a) ≤ b → b < Text.offsetAt l l.length → tokens.scopesAt a b = s.scopes
  closes : ∀ a l x, k ≤ a → ((Text.lines source).map String.toList)[a]? = some l →
    Absent ((Text.lines source).map String.toList) t k stop a → Text.StandsFirst t (Text.withEnd l) (startOn k stop a) x →
    ∃ f below captured q q', (s.on k a).frames = f :: below ∧
      Relation.ReflTransGen (h.Advances ((Text.lines source).map String.toList)) (.scan k stop s p)
        (.scan a (startOn k stop a) (s.on k a) q) ∧
      h.next (Text.withEnd l) (startOn k stop a) (s.on k a) = some (.leave f below, ⟨Text.spanAt t x, captured⟩) ∧
      h.Advances ((Text.lines source).map String.toList) (.scan a (startOn k stop a) (s.on k a) q)
        (.scan a (x + t.length) { s.on k a with frames := below } q') ∧
      ∀ b, Text.offsetAt l (startOn k stop a) ≤ b → b < Text.offsetAt l x → tokens.scopesAt a b = s.scopes
  stays : Absent ((Text.lines source).map String.toList) t k stop ((Text.lines source).map String.toList).length →
    h.stateAfter source = .ok (s.on k (((Text.lines source).map String.toList).length - 1))

theorem scopes_on (s : State) (k a : Nat) : (s.on k a).scopes = s.scopes := by
  unfold State.on
  split
  · rfl
  · exact s.scopes_atLineStart

variable {source : String} {tokens : TokenizedText}

theorem step_of_leave {k i : Nat} {l : List Char} {s : State} {f : Frame} {below : List Frame} {m : Match} {p : Painting}
    {r : Progress} (hn : h.next (Text.withEnd l) i s = some (.leave f below, m)) (hlt : i < m.span.stop)
    (hr : h.step (k + 1) (h.againIn k l) (Text.withEnd l) i s p = .ok r) :
    ∃ q, r = .next m.span.stop { s with frames := below } q := by
  obtain ⟨q, _, hsettle, _⟩ := painting_of_step hn rfl hr
  simp only [settle, Except.ok.injEq] at hsettle
  rw [if_neg (by omega)] at hsettle
  exact ⟨q, hsettle.symm⟩

theorem closedBy_of_awaits (htokens : h.tokenize source true = .ok tokens) (hs : s.Awaits h t captured) (ht : t ≠ "")
    (hk : k < ((Text.lines source).map String.toList).length)
    (hpt : h.Reaches ((Text.lines source).map String.toList) (.scan k stop s p)) :
    h.ClosedBy source tokens t k stop s p where
  waits a l ha hl habsent hmissing := by
    obtain ⟨q, hq⟩ := comes_to_line (p := p) hs ha hl habsent
    have hreach := hpt.trans hq
    have hn := (awaits_on hs k a).next_eq_none hmissing
    obtain ⟨r, hr⟩ := step_of_reaches htokens hl hreach
    refine ⟨⟨q, hq⟩, hn, fun b h1 h2 => ?_⟩
    rw [← scopes_on s k a]
    refine scopesAt_of_step htokens hl hreach hr (fun z hz _ hzl => ?_) h1 h2
    exact at_rest (upTo_of_reaches hl hreach).2 (by rw [Text.size_withEnd]; omega) hn hr hz hzl
  closes a l x ha hl habsent hx := by
    obtain ⟨q, hq⟩ := comes_to_line (p := p) hs ha hl habsent
    have hreach := hpt.trans hq
    obtain ⟨f, below, hf, hn⟩ := (awaits_on hs k a).next_eq_leave ht hx
    obtain ⟨r, hr⟩ := step_of_reaches htokens hl hreach
    have hpos : 0 < t.length := Nat.pos_of_ne_zero fun hz => ht (String.length_eq_zero_iff.mp hz)
    have hlt : startOn k stop a < x + t.length := Nat.lt_of_le_of_lt hx.le (by omega)
    obtain ⟨q', rfl⟩ := step_of_leave hn hlt hr
    refine ⟨f, below, captured x, q, q', hf, hq, hn, .step hl hr, fun b h1 h2 => ?_⟩
    rw [← scopes_on s k a]
    refine scopesAt_of_step htokens hl hreach hr (fun z hz hzx hzl => ?_) h1 h2
    exact at_before (upTo_of_reaches hl hreach).2 hn rfl hr hz hzx hzl
  stays habsent := by
    have hlast : ((Text.lines source).map String.toList)[((Text.lines source).map String.toList).length - 1]? =
        some ((Text.lines source).map String.toList)[((Text.lines source).map String.toList).length - 1] :=
      List.getElem?_eq_getElem (by omega)
    obtain ⟨q, hq⟩ := comes_to_line (p := p) hs (by omega) hlast fun b l h1 h2 => habsent b l h1 (by omega)
    obtain ⟨e, he, _, _, hend⟩ := scan_of_reaches htokens hlast (hpt.trans hq)
    have hn := (awaits_on hs k (((Text.lines source).map String.toList).length - 1)).next_eq_none
      (habsent _ _ (by omega) (by omega) hlast)
    rw [scan_of_done (step_of_next_eq_none h _ _ _ q hn), Except.ok.injEq] at he
    rw [hend (by omega), ← he]

end Highlighter

/-! ## References to what has been captured -/

namespace Literal

def RefersTo (source : String) (n : Nat) : Prop :=
  source = referenceTo n ∨ source = "(" ++ referenceTo n ++ ")"

variable {source : String} {n : Nat}

theorem RefersTo.hasBackReferences (h : RefersTo source n) (hn : 1 ≤ n) (hn' : n ≤ 9) : hasBackReferences source = true := by
  have href : (Piece.pair (Nat.digitChar n)).reference?.isSome = true := by
    rw [reference?_digitChar hn hn']
    rfl
  unfold Literal.hasBackReferences
  rcases h with rfl | rfl
  · rw [pieces_referenceTo]
    simp [href]
  · rw [pieces_group]
    simp [href]

theorem RefersTo.looksFor (h : RefersTo source n) (hn : 1 ≤ n) (hn' : n ≤ 9) {engine : Engine} (hm : engine.ReadsLiterals)
    {groups : List (Option String)} {t : String} (ht : groups[n]? = some (some t)) (hne : t ≠ "") {p : Pattern}
    (hp : engine.read (resolveBackReferences source groups) = .ok p) : ∃ captured, engine.LooksFor p t captured := by
  rcases h with rfl | rfl
  · rw [resolveBackReferences_referenceTo hn hn' ht] at hp
    exact ⟨_, hm.looksFor_bare hp⟩
  · rw [resolveBackReferences_group hn hn' ht] at hp
    exact ⟨_, hm.looksFor_grouped hne hp⟩

end Literal

namespace Highlighter

open Grammar (GrammarSource RuleSource)

/-- A region whose end is what a group of its beginning captured is closed where that text stands first. -/
theorem closed_by_captured_text {engine : Engine} {src : GrammarSource} {G : Grammar}
    (hG : Grammar.compile engine src = .ok G) (hm : engine.ReadsLiterals) {id : Nat} {rule : RuleSource}
    (hrule : src.Compiles G id rule) (hpattern : rule.pattern = none) (hopening : rule.opening.isSome) {source : String}
    (hclosing : rule.closing = some source) {n : Nat} (hrefers : Literal.RefersTo source n) (hn : 1 ≤ n) (hn' : n ≤ 9)
    (hpatterns : rule.patterns = []) {text : String}
    {tokens : TokenizedText} (htokens : tokenize ⟨G, engine⟩ text true = .ok tokens) {k i : Nat} {l : List Char} {s : State}
    {p p' : Painting} {m : Match} {f : Frame}
    (he : Enters ⟨G, engine⟩ ((Text.lines text).map String.toList) k i l s p id m f p') (hs : s.Unconditional) {t : String}
    (ht : (m.texts (Text.withEnd l))[n]? = some (some t)) (hne : t ≠ "") :
    (s.push f).scopes = s.scopes ++ Scope.ofTemplate rule.name (m.texts (Text.withEnd l)) ++
      Scope.ofTemplate rule.contentName (m.texts (Text.withEnd l)) ∧
    ClosedBy ⟨G, engine⟩ text tokens t k m.span.stop (s.push f) p' := by
  obtain ⟨node, hnode, hb⟩ := hrule
  obtain ⟨o, ho⟩ := Option.isSome_iff_exists.mp hopening
  obtain ⟨opening, closing, _, hread, hr⟩ := Grammar.getElem?_region hG hnode hb hpattern ho hclosing
  have hreference : closing = .backReferenced source := by
    unfold Closing.ofSource at hread
    rw [if_pos (hrefers.hasBackReferences hn hn')] at hread
    exact (Except.ok.inj hread).symm
  obtain ⟨resolved, hresolved, rfl⟩ := he.frame_eq hr
  refine ⟨rfl, ?_⟩
  simp only [hreference] at hresolved
  obtain ⟨captured, hlooks⟩ := hrefers.looksFor hn hn' hm ht hne (Results.mapError_eq_ok.mp hresolved)
  have hcandidates : G.candidatesIn id = [] := by
    rw [Grammar.candidatesIn_eq hr, hpatterns]
    show expand G.rules [] [] = []
    rw [expand]
  refine closedBy_of_awaits htokens (?_ : State.Awaits _ _ t captured) hne (List.getElem?_eq_some_iff.mp he.line).1
    he.reaches_inside
  exact ⟨⟨_, _, rule.closingLast, rfl, rfl, hcandidates, hlooks⟩, List.forall_mem_cons.mpr ⟨Lasting.noConfusion, hs⟩⟩

end Highlighter

/-! ## A quotation over two lines -/

namespace Quoting

open Grammar (RuleSource)

def rule : RuleSource :=
  { RuleSource.empty with
    opening := some "<(.)"
    closing := some "\\1"
    name := some "quoted text"
    contentName := some "body" }

theorem compiles_rule : source.Compiles grammar 1 rule := by
  have hbody : ((source.draft "s").nodes[1]?).map (·.body) = some (.rule rule) := by cbv
  exact Option.map_eq_some_iff.mp hbody

def begun : Painting :=
  ⟨3, [⟨⟨0, 2⟩, ["s", "quoted", "text"]⟩]⟩

theorem step_open : highlighter.step 1 (highlighter.againIn 0 ['<', '*', 'a']) (Text.withEnd ['<', '*', 'a']) 0
    (.start 0 ["s"]) (.blank 3) = .ok (.next 2 opened begun) := by cbv

theorem paintLine_open : highlighter.paintLine 1 ['<', '*', 'a'] (.start 0 ["s"]) =
    .ok (opened, ⟨3, [⟨⟨2, 3⟩, ["s", "quoted", "text", "body"]⟩, ⟨⟨0, 2⟩, ["s", "quoted", "text"]⟩]⟩) := by
  have hrest : highlighter.step 1 (highlighter.againIn 0 ['<', '*', 'a']) (Text.withEnd ['<', '*', 'a']) 2 opened begun =
      .ok (.done opened ⟨3, [⟨⟨2, 3⟩, ["s", "quoted", "text", "body"]⟩, ⟨⟨0, 2⟩, ["s", "quoted", "text"]⟩]⟩) := by cbv
  exact (Highlighter.scan_of_next step_open).trans (Highlighter.scan_of_done hrest)

theorem paintLine_close : highlighter.paintLine 2 ['b', '*', 'c'] opened = .ok (.start 0 ["s"],
    ⟨3, [⟨⟨2, 3⟩, ["s"]⟩, ⟨⟨1, 2⟩, ["s", "quoted", "text"]⟩, ⟨⟨0, 1⟩, ["s", "quoted", "text", "body"]⟩]⟩) := by
  have hclose : highlighter.step 2 (highlighter.againIn 1 ['b', '*', 'c']) (Text.withEnd ['b', '*', 'c']) 0
      opened.atLineStart (.blank 3) = .ok (.next 2 (.start 0 ["s"])
        ⟨3, [⟨⟨1, 2⟩, ["s", "quoted", "text"]⟩, ⟨⟨0, 1⟩, ["s", "quoted", "text", "body"]⟩]⟩) := by cbv
  have hrest : highlighter.step 2 (highlighter.againIn 1 ['b', '*', 'c']) (Text.withEnd ['b', '*', 'c']) 2
      (.start 0 ["s"]) ⟨3, [⟨⟨1, 2⟩, ["s", "quoted", "text"]⟩, ⟨⟨0, 1⟩, ["s", "quoted", "text", "body"]⟩]⟩ =
      .ok (.done (.start 0 ["s"]) ⟨3, [⟨⟨2, 3⟩, ["s"]⟩, ⟨⟨1, 2⟩, ["s", "quoted", "text"]⟩,
        ⟨⟨0, 1⟩, ["s", "quoted", "text", "body"]⟩]⟩) := by cbv
  exact (Highlighter.scan_of_next hclose).trans (Highlighter.scan_of_done hrest)

theorem lines_text : (Text.lines "<*a\nb*c").map String.toList = [['<', '*', 'a'], ['b', '*', 'c']] := by decide

def tokens : TokenizedText where
  lines := [
    [⟨0, "<*", some [⟨"<*", ["s", "quoted", "text"]⟩]⟩, ⟨2, "a", some [⟨"a", ["s", "quoted", "text", "body"]⟩]⟩],
    [⟨4, "b", some [⟨"b", ["s", "quoted", "text", "body"]⟩]⟩, ⟨5, "*", some [⟨"*", ["s", "quoted", "text"]⟩]⟩,
      ⟨6, "c", some [⟨"c", ["s"]⟩]⟩]]

theorem tokenize_text : highlighter.tokenize "<*a\nb*c" true = .ok tokens := by
  rw [Highlighter.tokenize_eq, lines_text]
  show (highlighter.paintLines 1 (.start 0 ["s"]) _).map _ = _
  rw [Highlighter.paintLines_cons_of_ok paintLine_open, Highlighter.paintLines_cons_of_ok paintLine_close]
  rfl

def found : Match :=
  ⟨⟨0, 2⟩, [some ⟨1, 2⟩]⟩

theorem enters : highlighter.Enters [['<', '*', 'a'], ['b', '*', 'c']] 0 0 ['<', '*', 'a'] (.start 0 ["s"]) (.blank 3) 1 found
    ⟨1, quotation, ⟨"\\*", .text ['*'], 0⟩, ["s"], ["s", "quoted", "text"], ["s", "quoted", "text", "body"], some 0⟩ begun where
  line := rfl
  reaches := by
    have hcheck : highlighter.checkConditions (highlighter.againIn 0 ['<', '*', 'a']) (Text.withEnd ['<', '*', 'a']) 0
        (.blank 3) (State.start 0 ["s"]).frames.reverse = .ok ([], 0, .blank 3) := rfl
    have hstart := Highlighter.Advances.check (k := 0) (show [['<', '*', 'a'], ['b', '*', 'c']][0]? = some _ from rfl) hcheck
    exact .single hstart
  next := ⟨quotation, by cbv⟩
  step := step_open

end Quoting

/-- The star that opened the quotation closes it on the next line, though a star means something
else in a pattern. -/
theorem closed_by_captured_star :
    Quoting.highlighter.tokenize "<*a\nb*c" true = .ok Quoting.tokens ∧
      Quoting.highlighter.ClosedBy "<*a\nb*c" Quoting.tokens "*" 0 2 Quoting.opened Quoting.begun := by
  refine ⟨Quoting.tokenize_text, ?_⟩
  have henters := Quoting.enters
  rw [← Quoting.lines_text] at henters
  exact (Highlighter.closed_by_captured_text Quoting.compile_source Engine.readsLiterals_backtracking Quoting.compiles_rule
    rfl rfl rfl (.inl rfl) (Nat.le_refl 1) (by decide) rfl Quoting.tokenize_text henters (List.forall_mem_nil _)
    rfl (by decide)).2

end Highlight
