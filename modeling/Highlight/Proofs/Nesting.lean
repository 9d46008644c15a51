import Highlight.Proofs.Counting
import Highlight.Proofs.Scopeless
import Highlight.Proofs.WholeMatches

/-!
# Nested regions

A region inside which only its own rule applies, and whose delimiters are texts, is open as often
as a count of these texts says. One step of the count is one step of the scan, or the way over
the end of a line, and what is painted depends on the count alone.
-/

namespace Highlight

/-- Regions of one rule that nest, and the state in which the outermost one was opened. -/
structure Nest extends Delimiters where
  /-- The scopes that each region adds, and those that its delimiters have besides. -/
  words : List String
  openingWords : List String
  closingWords : List String
  outer : State
  outermost : Frame

namespace Nest

def scopes (N : Nest) (depth : Nat) : List String :=
  N.outer.scopes ++ (List.replicate depth N.words).flatten

/-- The scopes of a delimiter that is read where so many regions are open. It belongs to the
region that it opens or closes. -/
def delimiterScopes (N : Nest) (depth : Nat) : Delimiter → List String
  | .opening => N.scopes (depth + 1) ++ N.openingWords
  | .closing => N.scopes depth ++ N.closingWords

def scopesFrom (N : Nest) (n : Count) (l : List Char) (z : Nat) : List String :=
  match N.first? l n.position with
  | some (d, x) => if z < x then N.scopes n.depth else N.delimiterScopes n.depth d
  | none => N.scopes n.depth

inductive Tower (N : Nest) : Nat → List Frame → Prop
  | outer {frames : List Frame} : frames.map Frame.settled = N.outer.frames.map Frame.settled → Tower N 0 frames
  | region {depth : Nat} {f : Frame} {below : List Frame} : f.rule = N.outermost.rule → f.region = N.outermost.region →
    f.closing = N.outermost.closing → f.named = N.scopes (depth + 1) → f.inner = N.scopes (depth + 1) →
    Tower N depth below → Tower N (depth + 1) (f :: below)

structure Of (N : Nest) (h : Highlighter) : Prop where
  rule : h.grammar.rules[N.outermost.rule]? = some (.region N.outermost.region)
  candidates : h.grammar.candidatesIn N.outermost.rule = [N.outermost.rule]
  lasting : N.outermost.region.lasting = .untilClosed false
  closing : N.outermost.region.closing = .fixed N.outermost.closing
  contentName : N.outermost.region.contentName = none
  looksForOpening : h.engine.LooksFor N.outermost.region.opening N.opening fun _ => []
  looksForClosing : h.engine.LooksFor N.outermost.closing N.closing fun _ => []
  openingCaptures : ∀ c ∈ N.outermost.region.openingCaptures, c.patterns = none
  closingCaptures : ∀ c ∈ N.outermost.region.closingCaptures, c.patterns = none
  words : N.words = Scope.ofTemplate N.outermost.region.name [some N.opening]
  openingWords : N.openingWords = Capture.ofWhole N.outermost.region.openingCaptures [some N.opening]
  closingWords : N.closingWords = Capture.ofWhole N.outermost.region.closingCaptures [some N.closing]
  unconditional : N.outer.Unconditional

variable {N : Nest} {h : Highlighter} {depth : Nat} {s : State} {l : List Char} {i x : Nat}

theorem scopes_succ (N : Nest) (depth : Nat) : N.scopes (depth + 1) = N.scopes depth ++ N.words := by
  unfold scopes
  rw [List.replicate_succ', List.flatten_append, List.append_assoc, List.flatten_singleton]

/-! ## Open regions -/

theorem Tower.atLineStart {frames : List Frame} (hT : N.Tower depth frames) :
    N.Tower depth (frames.map fun f => { f with enteredAt := none }) := by
  induction hT with
  | @outer frames hf =>
    refine .outer (Eq.trans ?_ hf)
    rw [List.map_map]
    rfl
  | region hrule hregion hclosing hnamed hinner _ ih => exact .region hrule hregion hclosing hnamed hinner ih

theorem Tower.exists_outer {frames : List Frame} (hf : frames.map Frame.settled = N.outer.frames.map Frame.settled) {f : Frame}
    (hmem : f ∈ frames) : ∃ f' ∈ N.outer.frames, f'.rule = f.rule ∧ f'.region = f.region := by
  have hsettled : f.settled ∈ N.outer.frames.map Frame.settled := hf ▸ List.mem_map_of_mem hmem
  obtain ⟨f', hf', he⟩ := List.mem_map.mp hsettled
  have hrule : f'.settled.rule = f.settled.rule := congrArg (·.rule) he
  have hregion : f'.settled.region = f.settled.region := congrArg (·.region) he
  exact ⟨f', hf', hrule, hregion⟩

theorem Tower.unconditional {frames : List Frame} (hN : N.Of h) (hT : N.Tower depth frames) :
    ∀ f ∈ frames, f.region.lasting ≠ .whileHolds := by
  induction hT with
  | outer hf =>
    intro f hmem
    obtain ⟨f', hf', _, hregion⟩ := exists_outer hf hmem
    exact hregion ▸ hN.unconditional f' hf'
  | region _ hregion _ _ _ _ ih =>
    refine List.forall_mem_cons.mpr ⟨?_, ih⟩
    rw [hregion, hN.lasting]
    exact Lasting.noConfusion

theorem Tower.countP {frames : List Frame} (hT : N.Tower depth frames)
    (hnone : ∀ f ∈ N.outer.frames, f.rule ≠ N.outermost.rule) :
    frames.countP (fun f => f.rule = N.outermost.rule) = depth := by
  induction hT with
  | outer hf =>
    rw [List.countP_eq_zero]
    intro f hmem
    obtain ⟨f', hf', hrule, _⟩ := exists_outer hf hmem
    simpa [hrule] using hnone f' hf'
  | region hrule _ _ _ _ _ ih => rw [List.countP_cons_of_pos (by simpa using hrule), ih]

/-! ## What comes next -/

def choice (N : Nest) (f : Frame) (below : List Frame) : Delimiter × Nat → Choice × Match
  | (.closing, x) => (.leave f below, .whole (Text.spanAt N.closing x))
  | (.opening, x) => (.enter N.outermost.rule N.outermost.region, .whole (Text.spanAt N.opening x))

theorem choices_eq (hN : N.Of h) {f : Frame} {below : List Frame} (hf : s.frames = f :: below)
    (hrule : f.rule = N.outermost.rule) (hregion : f.region = N.outermost.region) (hclosing : f.closing = N.outermost.closing) :
    s.choices h.grammar = [(.leave f below, N.outermost.closing),
      (.enter N.outermost.rule N.outermost.region, N.outermost.region.opening)] := by
  have hstarts : s.starts h.grammar = [(.enter N.outermost.rule N.outermost.region, N.outermost.region.opening)] := by
    unfold State.starts State.rule
    simp only [hf, hrule, hN.candidates]
    rw [List.filterMap_cons, hN.rule]
    rfl
  have hlasting : f.region.lasting = .untilClosed false := by rw [hregion, hN.lasting]
  unfold State.choices
  simp only [hf, hlasting, hstarts, hclosing]

theorem choiceAt_eq (hN : N.Of h) (f : Frame) (below : List Frame) : h.choiceAt (Text.withEnd l) i
    [(.leave f below, N.outermost.closing), (.enter N.outermost.rule N.outermost.region, N.outermost.region.opening)] x =
      (N.at? l x).map (N.choice f below) := by
  unfold Delimiters.at?
  by_cases hc : Text.StandsAt N.closing l.toArray x
  · rw [if_pos hc, Highlighter.choiceAt_cons_of_stands hN.looksForClosing N.closing_ne
      ((Text.standsAt_withEnd N.closing_line).mpr hc)]
    rfl
  · rw [if_neg hc, Highlighter.choiceAt_cons_of_not hN.looksForClosing (mt (Text.standsAt_withEnd N.closing_line).mp hc)]
    by_cases ho : Text.StandsAt N.opening l.toArray x
    · rw [if_pos ho, Highlighter.choiceAt_cons_of_stands hN.looksForOpening N.opening_ne
        ((Text.standsAt_withEnd N.opening_line).mpr ho)]
      rfl
    · rw [if_neg ho, Highlighter.choiceAt_cons_of_not hN.looksForOpening (mt (Text.standsAt_withEnd N.opening_line).mp ho)]
      rfl

/-- Where a region is open, the first delimiter is what comes next. -/
theorem next_eq (hN : N.Of h) {f : Frame} {below : List Frame} (hchoices : s.choices h.grammar =
    [(.leave f below, N.outermost.closing), (.enter N.outermost.rule N.outermost.region, N.outermost.region.opening)]) :
    h.next (Text.withEnd l) i s = (N.first? l i).map (N.choice f below) := by
  have hat : h.choiceAt (Text.withEnd l) i (s.choices h.grammar) = fun x => (N.at? l x).map (N.choice f below) := by
    funext x
    rw [hchoices, choiceAt_eq hN]
  unfold Highlighter.next Delimiters.first?
  rw [hat, firstFrom_map, Text.size_withEnd]
  congr 1
  -- no delimiter stands behind the end of the line
  by_cases hi : i ≤ l.length + 1
  · have hlast : N.at? l (i + (l.length + 1 - i)) = none := N.at?_of_length_le (by omega)
    rw [← firstFrom_succ hlast]
    congr 1
    omega
  · congr 1
    omega

/-! ## Steps -/

variable {number : Nat} {again : Retokenize} {p : Painting}

theorem Tower.next_eq (hN : N.Of h) (hT : N.Tower (depth + 1) s.frames) : ∃ f below, s.frames = f :: below ∧
    N.Tower depth below ∧ f.region = N.outermost.region ∧ f.named = N.scopes (depth + 1) ∧ s.scopes = N.scopes (depth + 1) ∧
    ∀ l i, h.next (Text.withEnd l) i s = (N.first? l i).map (N.choice f below) := by
  cases hf : s.frames with
  | nil =>
    rw [hf] at hT
    cases hT
  | cons f below =>
    rw [hf] at hT
    cases hT with
    | region hrule hregion hclosing hnamed hinner hbelow =>
      have hscopes : s.scopes = N.scopes (depth + 1) := by
        unfold State.scopes
        rw [hf]
        exact hinner
      exact ⟨f, below, rfl, hbelow, hregion, hnamed, hscopes, fun l i => Nest.next_eq hN (choices_eq hN hf hrule hregion hclosing)⟩

/-- A step paints up to the end of the delimiter that comes first, and counts it. -/
theorem step_of_delimiter (hN : N.Of h) (hT : N.Tower (depth + 1) s.frames) {d : Delimiter}
    (hd : N.first? l i = some (d, x)) : ∃ frames, N.Tower (d.count (depth + 1)) frames ∧
      h.step number again (Text.withEnd l) i s p = .ok (.next (x + (N.text d).length) { s with frames := frames }
        ((p.paint i x (N.scopes (depth + 1))).paint x (x + (N.text d).length) (N.delimiterScopes (depth + 1) d))) := by
  obtain ⟨f, below, hf, hbelow, hregion, hnamed, hscopes, hnext⟩ := hT.next_eq hN
  obtain ⟨hix, hstands⟩ := Delimiters.first?_eq_some hd
  have hpos := Delimiters.length_text_pos (D := N.toDelimiters) d
  have htexts := Match.texts_whole ((Text.standsAt_withEnd (Delimiters.line_text d)).mpr hstands) (Delimiters.text_ne d)
  have hspan : (Text.spanAt (N.text d) x).start < (Text.spanAt (N.text d) x).stop := Nat.lt_add_of_pos_right hpos
  have hn := hnext l i
  rw [hd, Option.map_some] at hn
  cases d with
  | closing =>
    have hcaptures : ∀ c ∈ f.region.closingCaptures, c.patterns = none := by
      rw [hregion]
      exact hN.closingCaptures
    have hscopes' : f.named ++ Capture.ofWhole f.region.closingCaptures [some N.closing] =
        N.delimiterScopes (depth + 1) .closing := by
      rw [hnamed, hregion, ← hN.closingWords]
      rfl
    have hstep := Highlighter.step_of_leave_whole number again p hspan hn hcaptures
    rw [hscopes, htexts] at hstep
    exact ⟨below, hbelow, hscopes' ▸ hstep⟩
  | opening =>
    have hnamed' : s.scopes ++ Scope.ofTemplate N.outermost.region.name
        ((Match.whole (Text.spanAt (N.text .opening) x)).texts (Text.withEnd l)) = N.scopes (depth + 2) := by
      rw [hscopes, scopes_succ N (depth + 1), htexts, hN.words]
      rfl
    have hscopes' : N.scopes (depth + 2) ++ Capture.ofWhole N.outermost.region.openingCaptures [some N.opening] =
        N.delimiterScopes (depth + 1) .opening := by
      rw [← hN.openingWords]
      rfl
    have hstep := Highlighter.step_of_enter_whole number again p hspan hn hN.openingCaptures hN.closing
    rw [hnamed', hscopes, htexts] at hstep
    refine ⟨_, ?_, hscopes' ▸ hstep⟩
    refine .region rfl rfl rfl hnamed' ?_ hT
    show s.scopes ++ _ ++ _ = _
    rw [hnamed', hN.contentName]
    exact List.append_nil _

theorem Tower.next_eq_none (hN : N.Of h) (hT : N.Tower (depth + 1) s.frames) (hnone : N.first? l i = none) :
    h.next (Text.withEnd l) i s = none := by
  obtain ⟨_, _, _, _, _, _, _, hnext⟩ := hT.next_eq hN
  rw [hnext l i, hnone, Option.map_none]

theorem step_of_none (hN : N.Of h) (hT : N.Tower (depth + 1) s.frames) (hnone : N.first? l i = none) :
    h.step number again (Text.withEnd l) i s p =
      .ok (.done s (p.paint i (Text.withEnd l).size (N.scopes (depth + 1)))) := by
  obtain ⟨_, _, _, _, _, _, hscopes, _⟩ := hT.next_eq hN
  rw [Highlighter.step_of_next_eq_none h number again _ p (hT.next_eq_none hN hnone), hscopes]

/-! ## Runs -/

inductive At (N : Nest) : Count → Point → Prop
  | line {k depth : Nat} {s : State} : N.Tower depth s.frames → At N ⟨k, 0, depth⟩ (.line k s)
  | scan {k i depth : Nat} {s : State} {p : Painting} : N.Tower depth s.frames → At N ⟨k, i, depth⟩ (.scan k i s p)

variable {lines : List (List Char)} {n n' : Count} {pt pt' : Point}

/-- While a region is open, a step of a run stays at its count or goes on to the next one. -/
theorem At.advances (hN : N.Of h) (hat : N.At n pt) (hn : 0 < n.depth) (hadv : h.Advances lines pt pt') :
    ∃ n', (n' = n ∨ N.LeadsTo lines n n') ∧ N.At n' pt' := by
  cases hat with
  | @line k depth s hT =>
    cases hadv with
    | check hl hc =>
      have hunconditional : ∀ f ∈ s.frames.reverse, f.region.lasting ≠ .whileHolds := fun f hf =>
        hT.unconditional hN f (List.mem_reverse.mp hf)
      rw [Highlighter.checkConditions_of_unconditional 0 _ hunconditional] at hc
      cases hc
      refine ⟨_, .inl rfl, .scan ?_⟩
      rw [List.reverse_reverse]
      exact hT
  | @scan k i depth s p hT =>
    cases depth with
    | zero => cases hn
    | succ depth =>
      cases hadv with
      | @step _ _ j l _ s' _ p' hl hs =>
        cases hf : N.first? l i with
        | none =>
          rw [step_of_none hN hT hf] at hs
          cases hs
        | some dx =>
          obtain ⟨frames, hT', hstep⟩ := step_of_delimiter hN hT hf
          rw [hstep] at hs
          cases hs
          exact ⟨_, .inr ⟨hn, Delimiters.next?_of_some hl hf⟩, .scan hT'⟩
      | @newline _ _ l _ s' _ p' hl hs hlt =>
        cases hf : N.first? l i with
        | none =>
          rw [step_of_none hN hT hf] at hs
          cases hs
          refine ⟨⟨k + 1, 0, depth + 1⟩, .inr ⟨hn, ?_⟩, .line hT.atLineStart⟩
          rw [Delimiters.next?_of_none hl hf, if_pos hlt]
        | some dx =>
          obtain ⟨frames, hT', hstep⟩ := step_of_delimiter hN hT hf
          rw [hstep] at hs
          cases hs

theorem exists_scan_of_leadsTo (hN : N.Of h) (hT : N.Tower n.depth s.frames) (hn : N.LeadsTo lines n n') :
    ∃ s' p', Relation.ReflTransGen (h.Advances lines) (.scan n.line n.position s p) (.scan n'.line n'.position s' p') ∧
      N.Tower n'.depth s'.frames := by
  obtain ⟨k, i, depth⟩ := n
  obtain ⟨hpos, hnext⟩ := hn
  cases depth with
  | zero => cases hpos
  | succ depth =>
    cases hl : lines[k]? with
    | none =>
      unfold Delimiters.next? at hnext
      simp only [hl] at hnext
      cases hnext
    | some l =>
      cases hf : N.first? l i with
      | some dx =>
        rw [Delimiters.next?_of_some hl hf, Option.some.injEq] at hnext
        subst hnext
        obtain ⟨frames, hT', hstep⟩ := step_of_delimiter hN hT hf
        exact ⟨_, _, .single (.step hl hstep), hT'⟩
      | none =>
        rw [Delimiters.next?_of_none hl hf] at hnext
        by_cases hlt : k + 1 < lines.length
        · rw [if_pos hlt, Option.some.injEq] at hnext
          subst hnext
          exact ⟨s.atLineStart, _, Highlighter.advances_line hl (List.getElem?_eq_getElem hlt) (hT.unconditional hN)
            (hT.next_eq_none hN hf), hT.atLineStart⟩
        · rw [if_neg hlt] at hnext
          cases hnext

/-- A run follows the count until all regions are closed. -/
theorem follows (hN : N.Of h) {n₀ : Count} (hat : N.At n₀ pt) (hrun : Relation.ReflTransGen (h.Advances lines) pt pt') :
    ∃ n, N.Counts lines n₀ n ∧ (N.At n pt' ∨ n.depth = 0 ∧
      ∃ closed, N.At n closed ∧ Relation.ReflTransGen (h.Advances lines) pt closed ∧
        Relation.ReflTransGen (h.Advances lines) closed pt') := by
  -- once all regions are closed, the point where they were is kept
  induction hrun with
  | refl => exact ⟨n₀, .refl, .inl hat⟩
  | @tail a b hrun hadv ih =>
    obtain ⟨n, hcounts, ha | ⟨hzero, closed, hclosed, hto, hfrom⟩⟩ := ih
    · by_cases hzero : n.depth = 0
      · exact ⟨n, hcounts, .inr ⟨hzero, a, ha, hrun, .single hadv⟩⟩
      · obtain ⟨n', hn', hb⟩ := ha.advances hN (Nat.pos_of_ne_zero hzero) hadv
        rcases hn' with rfl | hlead
        · exact ⟨n', hcounts, .inl hb⟩
        · exact ⟨n', hcounts.tail hlead, .inl hb⟩
    · exact ⟨n, hcounts, .inr ⟨hzero, closed, hclosed, hto, hfrom.tail hadv⟩⟩

theorem exists_scan_of_counts (hN : N.Of h) {n₀ : Count} (hT : N.Tower n₀.depth s.frames) (hcounts : N.Counts lines n₀ n) :
    ∃ s' p', Relation.ReflTransGen (h.Advances lines) (.scan n₀.line n₀.position s p) (.scan n.line n.position s' p') ∧
      N.Tower n.depth s'.frames := by
  induction hcounts with
  | refl => exact ⟨s, p, .refl, hT⟩
  | tail _ hlead ih =>
    obtain ⟨s₁, p₁, hrun, hT₁⟩ := ih
    obtain ⟨s', p', hrun', hT'⟩ := exists_scan_of_leadsTo (p := p₁) hN hT₁ hlead
    exact ⟨s', p', hrun.trans hrun', hT'⟩

/-! ## Scopes -/

theorem scopesAt_of_count (hN : N.Of h) {source : String} {tokens : TokenizedText} (htokens : h.tokenize source true = .ok tokens)
    (hl : ((Text.lines source).map String.toList)[n.line]? = some l) (hT : N.Tower n.depth s.frames) (hn : 0 < n.depth)
    (hreach : h.Reaches ((Text.lines source).map String.toList) (.scan n.line n.position s p)) {z : Nat} (hz : n.position ≤ z)
    (hstop : z < N.stopOf l n.position) (hzl : z < l.length) {b : Nat} (h1 : Text.offsetAt l z ≤ b)
    (h2 : b < Text.offsetAt l (z + 1)) : tokens.scopesAt n.line b = N.scopesFrom n l z := by
  obtain ⟨k, i, depth⟩ := n
  obtain ⟨_, hp⟩ := Highlighter.upTo_of_reaches hl hreach
  have hsize : z < (Text.withEnd l).size := by
    rw [Text.size_withEnd]
    omega
  unfold scopesFrom
  cases depth with
  | zero => cases hn
  | succ depth =>
    cases hf : N.first? l i with
    | none =>
      refine Highlighter.scopesAt_of_step htokens hl hreach (step_of_none hN hT hf) (fun z' h3 h4 _ => ?_) h1 h2
      obtain rfl : z' = z := by omega
      exact hp.at_paint hz hsize hzl _
    | some dx =>
      obtain ⟨d, x⟩ := dx
      obtain ⟨frames, _, hstep⟩ := step_of_delimiter hN hT hf
      rw [Delimiters.stopOf_of_some hf] at hstop
      refine Highlighter.scopesAt_of_step htokens hl hreach hstep (fun z' h3 h4 _ => ?_) h1 h2
      obtain rfl : z' = z := by omega
      by_cases hzx : z' < x
      · simp only [if_pos hzx]
        exact (hp.at_paint hz hzx hzl _).paint _ _ _
      · simp only [if_neg hzx]
        have hpx : Painting.UpTo l.length x (p.paint i x (N.scopes (depth + 1))) :=
          (Painting.upTo_law l.length).paint (Delimiters.first?_eq_some hf).1 trivial hp
        exact hpx.at_paint (Nat.not_lt.mp hzx) hstop hzl _

end Nest

end Highlight
