import Highlight.Proofs.Compiled
import Highlight.Proofs.Marks
import Highlight.Proofs.RootScopes
import Highlight.Proofs.Runs

/-!
# The discipline of the stack

At each point of a run the state is lawful: outside of all regions a container applies, and
each open region is one of the grammar, with the scopes that were in force where it was
opened. That point lies before on the way, so leaving the region gives back the stack that was
there. Scopes are only ever added as words on top of the scope of the grammar.
-/

namespace Highlight

namespace Highlighter

variable {h : Highlighter} {lines : List (List Char)}

/-! ## Lawful states -/

theorem region_of_enter {g : Grammar} {s : State} {id : Nat} {r : Region Nat Pattern} {p : Pattern}
    (hc : (.enter id r, p) ∈ s.choices g) : g.rules[id]? = some (.region r) := by
  rcases State.mem_choices hc with ⟨_, _, _, he⟩ | ⟨i, rule, hr, he⟩
  · cases he
  · cases rule with
    | container ps => cases he
    | piece name pattern captures => cases he
    | region r' =>
      cases he
      exact hr

variable {s s' : State}

theorem lawful_turn {number : Nat} {text : Array Char} {start : Nat} (hs : s.Lawful h.grammar)
    (ht : h.Turn number text start s s') : s'.Lawful h.grammar := by
  cases ht with
  | stay => exact hs
  | leave hf =>
    refine ⟨hs.base, fun f hm => hs.frames f (by simp [hf, hm]), ?_⟩
    exact ((hf ▸ hs.stacked).of_cons).2.2.2
  | @enter id r m closing hn hclosing =>
    obtain ⟨⟨p, hc⟩, _⟩ := next_eq_some hn
    refine ⟨hs.base, List.forall_mem_cons.mpr ⟨⟨region_of_enter hc, ?_⟩, hs.frames⟩, ?_⟩
    · intro p hp
      have hp : r.closing = .fixed p := hp
      rw [hp] at hclosing
      cases hclosing
      rfl
    · exact .cons (s.scopes_eq) (List.prefix_append ..) (List.prefix_append ..) hs.stacked

theorem scopesOver_atLineStart (base : List String) (frames : List Frame) :
    Frame.scopesOver base (frames.map fun f => { f with enteredAt := none }) = Frame.scopesOver base frames := by
  cases frames with
  | nil => rfl
  | cons f below => rfl

theorem stacked_atLineStart {base : List String} {frames : List Frame} (hf : Frame.Stacked base frames) :
    Frame.Stacked base (frames.map fun f => { f with enteredAt := none }) := by
  induction hf with
  | nil => exact .nil
  | @cons f below ho hn hi _ ih => exact .cons (ho.trans (scopesOver_atLineStart base below).symm) hn hi ih

theorem lawful_atLineStart (hs : s.Lawful h.grammar) : s.atLineStart.Lawful h.grammar := by
  refine ⟨hs.base, ?_, stacked_atLineStart hs.stacked⟩
  intro f hf
  obtain ⟨f', hf', rfl⟩ := List.mem_map.mp hf
  exact ⟨(hs.frames f' hf').region, (hs.frames f' hf').closing⟩

/-- The regions that stay are the lowest ones. -/
theorem frames_of_checkConditions {again : Retokenize} {text : Array Char} {start : Nat} {p : Painting}
    {e : List Frame × Nat × Painting} (he : h.checkConditions again text start p s.frames.reverse = .ok e) :
    ∃ dropped, s.frames = dropped ++ e.1.reverse := by
  obtain ⟨rest, hrest⟩ := prefix_of_checkConditions he
  refine ⟨rest.reverse, ?_⟩
  rw [← List.reverse_append, hrest, List.reverse_reverse]

theorem lawful_of_append {dropped below : List Frame} (hs : s.Lawful h.grammar) (hf : s.frames = dropped ++ below) :
    ({ s with frames := below } : State).Lawful h.grammar :=
  ⟨hs.base, fun f hm => hs.frames f (by simp [hf, hm]), (hf ▸ hs.stacked).of_append.1⟩

/-! ## Captures -/

theorem pattern_of_again {text : Array Char} {m : Match} {captures : List (Capture Nat)} {scopes : List String}
    {seg : Segment} {rule : Nat} (hseg : seg ∈ Segment.ofMatch text m captures scopes) (hr : seg.again = some rule) :
    ∃ c ∈ captures, c.patterns = some rule := by
  obtain ⟨_, _, rfl⟩ := List.mem_map.mp hseg
  obtain ⟨a, ha, hrule⟩ := List.mem_filterMap.mp (List.mem_of_getLast? hr)
  refine ⟨a.capture, ?_, hrule⟩
  have hmem : ∀ (cs : List (Capture Nat)) (found : List Active), a ∈ Active.collect m found cs →
      a ∈ found ∨ a.capture ∈ cs := by
    intro cs
    induction cs with
    | nil => exact fun _ ha => .inl ha
    | cons c cs ih =>
      intro found ha
      rw [Active.collect] at ha
      split at ha
      · rcases ih _ ha with ha | ha
        · exact .inl ha
        · exact .inr (List.mem_cons_of_mem c ha)
      · rcases ih _ ha with ha | ha
        · split at ha
          · exact .inl ha
          · rcases List.mem_append.mp ha with ha | ha
            · exact .inl ha
            · rw [List.mem_singleton.mp ha]
              exact .inr (List.mem_cons_self ..)
        · exact .inr (List.mem_cons_of_mem c ha)
  rcases hmem captures [] (List.mem_filter.mp ha).1 with ha | ha
  · cases ha
  · exact ha

/-- The captures that a match is painted with are those of a rule. -/
theorem rule_of_painted? {text : Array Char} {start : Nat} {c : Choice} {m : Match} {captures : List (Capture Nat)}
    {scopes : List String} (hs : s.Lawful h.grammar) (hn : h.next text start s = some (c, m))
    (hp : s.painted? text start m c = some (captures, scopes)) :
    ∃ (i : Nat) (rule : Rule Nat Pattern), h.grammar.rules[i]? = some rule ∧ captures ⊆ rule.captures := by
  obtain ⟨⟨p, hc⟩, _⟩ := next_eq_some hn
  cases c with
  | leave f below =>
    cases hp
    have hf := State.frames_of_leave_mem hc
    exact ⟨_, _, (hs.frames f (by simp [hf])).region, List.subset_append_right ..⟩
  | piece name captures =>
    cases hp
    rcases State.mem_choices hc with ⟨_, _, _, he⟩ | ⟨i, rule, hr, he⟩
    · cases he
    · cases rule with
      | container ps => cases he
      | piece name' pattern captures' =>
        cases he
        exact ⟨i, _, hr, List.Subset.refl _⟩
      | region r => cases he
  | enter id r =>
    unfold State.painted? at hp
    simp only at hp
    split at hp
    · cases hp
    · cases hp
      exact ⟨id, _, region_of_enter hc, List.subset_append_left ..⟩

theorem rule_of_finds {pt : Point} {t : Task} (hs : pt.state.Lawful h.grammar) (hf : h.Finds lines pt t) :
    ∃ (i : Nat) (rule : Rule Nat Pattern), h.grammar.rules[i]? = some rule ∧ t.captures ⊆ rule.captures := by
  cases hf with
  | scan _ hn hp => exact rule_of_painted? hs hn hp
  | again hn hp => exact rule_of_painted? hs hn hp
  | @condition k l s f m p _ hc =>
    have hf : f ∈ s.frames := List.mem_reverse.mp (mem_of_checks hc)
    exact ⟨_, _, (hs.frames f hf).region, List.subset_append_right ..⟩

/-! ## The way to a point -/

theorem lawful_of_advances {a b : Point} (ha : a.state.Lawful h.grammar) (hl : h.Advances lines a b) :
    b.state.Lawful h.grammar := by
  cases hl with
  | check hk hc =>
    obtain ⟨dropped, hf⟩ := frames_of_checkConditions hc
    exact lawful_of_append ha hf
  | step hk hs => exact lawful_turn ha (turn_of_step hs)
  | newline hk hs _ => exact lawful_atLineStart (lawful_turn ha (turn_of_step hs))
  | again hs => exact lawful_turn ha (turn_of_step hs)

theorem lawful_of_opens {a b : Point} (hg : h.grammar.Sound) (ha : a.state.Lawful h.grammar) (ho : h.Opens lines a b) :
    b.state.Lawful h.grammar := by
  obtain ⟨hf, _, _, hseg, _, hagain, _⟩ := ho
  obtain ⟨i, rule, hr, hsub⟩ := rule_of_finds ha hf
  obtain ⟨c, hc, hpatterns⟩ := pattern_of_again (by rw [hseg]; simp) hagain
  exact ⟨hg.again i rule c _ hr (hsub hc) hpatterns, List.forall_mem_nil _, .nil⟩

theorem lawful_of_comes (hg : h.grammar.Sound) {pt : Point} (hpt : h.Comes lines pt) : pt.state.Lawful h.grammar := by
  induction hpt with
  | refl => exact ⟨hg.root, List.forall_mem_nil _, .nil⟩
  | tail _ hl ih =>
    rcases hl with hl | ho
    · exact lawful_of_advances ih hl
    · exact lawful_of_opens hg ih ho

end Highlighter

def Frame.settled (f : Frame) : Frame :=
  { f with enteredAt := none }

namespace Highlighter

variable {h : Highlighter} {lines : List (List Char)}

def Entering (h : Highlighter) (lines : List (List Char)) (f : Frame) (below : List Frame) (pt : Point) : Prop :=
  ∃ text i m, pt.scanned? lines = some (text, i) ∧ h.next text i pt.state = some (.enter f.rule f.region, m) ∧
    pt.state.scopes = f.outer ∧ pt.state.frames.map Frame.settled = below.map Frame.settled

theorem entering_settled {f : Frame} {below : List Frame} {pt : Point} (hpt : h.Entering lines f below pt) :
    h.Entering lines f.settled (below.map Frame.settled) pt := by
  obtain ⟨text, i, m, hscan, hn, hscopes, hbelow⟩ := hpt
  refine ⟨text, i, m, hscan, hn, hscopes, hbelow.trans ?_⟩
  rw [List.map_map]
  rfl

/-- Each of these regions was opened at a point on the way, at which those below it were open. -/
def Opened (h : Highlighter) (lines : List (List Char)) (frames : List Frame) (pt : Point) : Prop :=
  ∀ above f below, frames = above ++ f :: below → ∃ pt₀, h.Comes lines pt₀ ∧
    Relation.TransGen (h.Advances lines) pt₀ pt ∧ h.Entering lines f below pt₀

variable {s s' : State} {a b : Point}

theorem Opened.advances {frames : List Frame} (ha : h.Opened lines frames a) (hl : h.Advances lines a b) :
    h.Opened lines frames b := by
  intro above f below hf
  obtain ⟨pt₀, h1, h2, h3⟩ := ha above f below hf
  exact ⟨pt₀, h1, h2.tail hl, h3⟩

theorem Opened.suffix (dropped : List Frame) {frames : List Frame} (ha : h.Opened lines (dropped ++ frames) a) :
    h.Opened lines frames a := by
  intro above f below hf
  exact ha (dropped ++ above) f below (by rw [hf, List.append_assoc])

theorem Opened.settled {frames : List Frame} (ha : h.Opened lines frames a) :
    h.Opened lines (frames.map Frame.settled) a := by
  intro above f below hf
  obtain ⟨above', rest, rfl, rfl, hrest⟩ := List.map_eq_append_iff.mp hf
  obtain ⟨f', below', rfl, rfl, rfl⟩ := List.map_eq_cons_iff.mp hrest
  obtain ⟨pt₀, h1, h2, h3⟩ := ha above' f' below' rfl
  exact ⟨pt₀, h1, h2, entering_settled h3⟩

theorem opened_of_turn {number start : Nat} {text : Array Char} (hcomes : h.Comes lines a)
    (ha : h.Opened lines a.state.frames a) (hl : h.Advances lines a b) (hscan : a.scanned? lines = some (text, start))
    (ht : h.Turn number text start a.state s') : h.Opened lines s'.frames b := by
  have hb := ha.advances hl
  cases ht with
  | stay => exact hb
  | @leave g below hbelow =>
    rw [hbelow] at hb
    exact Opened.suffix [g] hb
  | @enter id r m closing hn _ =>
    intro above f below hf
    cases above with
    | nil =>
      simp only [State.push, List.nil_append, List.cons.injEq] at hf
      obtain ⟨rfl, rfl⟩ := hf
      exact ⟨a, hcomes, .single hl, text, start, m, hscan, hn, rfl, rfl⟩
    | cons g above =>
      simp only [State.push, List.cons_append, List.cons.injEq] at hf
      exact hb above f below hf.2

theorem opened_of_advances (hcomes : h.Comes lines a) (ha : h.Opened lines a.state.frames a) (hl : h.Advances lines a b) :
    h.Opened lines b.state.frames b := by
  have hadvances := hl
  cases hl with
  | check hk hc =>
    obtain ⟨dropped, hf⟩ := frames_of_checkConditions hc
    have hb := ha.advances hadvances
    exact Opened.suffix dropped (hf ▸ hb)
  | @step k i j l s s' p p' hk hs =>
    exact opened_of_turn hcomes ha hadvances (by simp [Point.scanned?, hk]) (turn_of_step hs)
  | newline hk hs _ =>
    exact Opened.settled (opened_of_turn hcomes ha hadvances (by simp [Point.scanned?, hk]) (turn_of_step hs))
  | again hs => exact opened_of_turn hcomes ha hadvances rfl (turn_of_step hs)

theorem opened_of_comes {pt : Point} (hpt : h.Comes lines pt) : h.Opened lines pt.state.frames pt := by
  have hempty (pt : Point) : h.Opened lines [] pt := by
    intro above f below hf
    cases above with
    | nil => cases hf
    | cons g above => cases hf
  induction hpt with
  | refl => exact hempty _
  | @tail a b ha hl ih =>
    rcases hl with hl | ho
    · exact opened_of_advances ha ih hl
    · cases ho
      exact hempty _

end Highlighter

/-! ## The discipline -/

def Mark.settled (m : Mark) : Mark :=
  { m with enteredAt := none }

def Mark.Nested : List Mark → Nat → Prop
  | [], _ => True
  | m :: below, depth => m.base ≤ m.named ∧ m.named ≤ depth ∧ Nested below m.base

/-- What holds of the marks at a point of a run. -/
structure Disciplined (h : Highlighter) (lines : List (List Char)) (pt : Point) : Prop where
  bottom : ∃ m ps, pt.state.marked.marks.getLast? = some m ∧ h.grammar.rules[m.rule]? = some (.container ps)
  regions : ∀ m ∈ pt.state.marked.marks.dropLast, ∃ r, m.region? h.grammar = some r ∧
    (m.resolved.isSome ↔ ∃ source, r.closing = .backReferenced source) ∧ (m.closing? h.grammar).isSome
  nested : Mark.Nested pt.state.marked.marks pt.state.marked.scopes.length
  /-- The scopes up to the base of a mark are those of the point where its region was opened. -/
  restores : ∀ above m below, pt.state.marked.marks = above ++ m :: below → below ≠ [] → ∃ pt₀,
    h.Comes lines pt₀ ∧ Relation.TransGen (h.Advances lines) pt₀ pt ∧
    (∃ text i r found, pt₀.scanned? lines = some (text, i) ∧ h.next text i pt₀.state = some (.enter m.rule r, found)) ∧
    pt₀.state.marked.scopes = pt.state.marked.scopes.take m.base ∧
    pt₀.state.marked.marks.map Mark.settled = below.map Mark.settled
  /-- Where a region is left, there is one above the container. -/
  leaves : ∀ text i found, pt.state.marked.next h text i = some (.closing, found) →
    ∃ m m' below, pt.state.marked.marks = m :: m' :: below
  step : ∀ number again text i p, pt.state.marked.step h number again text i p =
    (h.step number again text i pt.state p).map Progress.marked
  check : ∀ again text p, pt.state.marked.check h again text p =
    (h.checkConditions again text 0 p pt.state.frames.reverse).map fun e =>
      (({ pt.state with frames := e.1.reverse } : State).marked, e.2.1, e.2.2)

namespace State.Lawful

variable {s : State} {h : Highlighter}

theorem nested_marks (base : List String) (mark : Mark) (hb : mark.base = base.length) (hn : mark.named = base.length) :
    ∀ {frames : List Frame}, Frame.Stacked base frames →
      Mark.Nested (frames.map Frame.mark ++ [mark]) (Frame.scopesOver base frames).length
  | [], _ => ⟨by omega, Nat.le_of_eq hn, trivial⟩
  | f :: below, hf => by
    obtain ⟨houter, hnamed, hinner, hbelow⟩ := hf.of_cons
    refine ⟨hnamed.length_le, hinner.length_le, ?_⟩
    have ih := nested_marks base mark hb hn hbelow
    rwa [← houter] at ih

theorem getLast?_marks (s : State) : s.marked.marks.getLast? = some s.baseMark := by
  unfold State.marked
  simp

theorem dropLast_marks (s : State) : s.marked.marks.dropLast = s.frames.map Frame.mark := by
  unfold State.marked
  simp

end State.Lawful

namespace Highlighter

variable {h : Highlighter} {lines : List (List Char)}

theorem settled_marked {s t : State} {below : List Frame} (hroot : s.SameRoot t)
    (hf : s.frames.map Frame.settled = below.map Frame.settled) :
    s.marked.marks.map Mark.settled = (below.map Frame.mark ++ [t.baseMark]).map Mark.settled := by
  have hmark (frames : List Frame) : (frames.map Frame.mark).map Mark.settled = (frames.map Frame.settled).map Frame.mark := by
    rw [List.map_map, List.map_map]
    rfl
  unfold State.marked
  rw [List.map_append, List.map_append, hmark, hmark, hf]
  unfold State.baseMark
  rw [hroot.1, hroot.2]

theorem sameRoot_of_advances {a b : Point} (hl : h.Advances lines a b) : b.state.SameRoot a.state := by
  cases hl with
  | check _ _ => exact ⟨rfl, rfl⟩
  | step _ hs => exact sameRoot_step hs
  | newline _ hs _ => exact sameRoot_step hs
  | again hs => exact sameRoot_step hs

theorem sameRoot_of_transGen {a b : Point} (hl : Relation.TransGen (h.Advances lines) a b) : b.state.SameRoot a.state := by
  induction hl with
  | single hl => exact sameRoot_of_advances hl
  | tail _ hl ih => exact (sameRoot_of_advances hl).trans ih

theorem disciplined_of_comes (hg : h.grammar.Sound) {pt : Point} (hpt : h.Comes lines pt) : Disciplined h lines pt := by
  have hs := lawful_of_comes hg hpt
  refine ⟨?_, ?_, ?_, ?_, ?_, fun number again text i p => hs.marked_step number again text i p,
    fun again text p => hs.marked_check again text p⟩
  · obtain ⟨ps, hps⟩ := hs.base
    exact ⟨_, ps, State.Lawful.getLast?_marks _, hps⟩
  · intro m hm
    rw [State.Lawful.dropLast_marks] at hm
    obtain ⟨f, hf, rfl⟩ := List.mem_map.mp hm
    have hlawful := hs.frames f hf
    refine ⟨f.region, State.Lawful.region?_mark hlawful, ?_, by rw [State.Lawful.closing?_mark hlawful]; rfl⟩
    unfold Frame.mark
    cases f.region.closing with
    | fixed p => simp
    | backReferenced source => simp
  · show Mark.Nested _ pt.state.scopes.length
    rw [State.scopes_eq]
    exact State.Lawful.nested_marks pt.state.baseScopes pt.state.baseMark rfl rfl hs.stacked
  · intro above m below hmarks hne
    -- the lowest mark has nothing below it, so this one is that of a frame
    obtain ⟨below', rfl⟩ : ∃ below', below = below' ++ [pt.state.baseMark] := by
      have hlast := State.Lawful.getLast?_marks pt.state
      rw [hmarks, List.getLast?_append, List.getLast?_cons, Option.some_or] at hlast
      rw [Option.some.injEq, List.getLast?_eq_some_getLast hne, Option.getD_some] at hlast
      exact ⟨below.dropLast, by rw [← hlast, List.dropLast_append_getLast]⟩
    have hframes : pt.state.frames.map Frame.mark = above ++ m :: below' := by
      rw [← State.Lawful.dropLast_marks, hmarks, ← List.cons_append, ← List.append_assoc, List.dropLast_concat]
    obtain ⟨above', rest, hf, rfl, hrest⟩ := List.map_eq_append_iff.mp hframes
    obtain ⟨f, below'', rfl, rfl, rfl⟩ := List.map_eq_cons_iff.mp hrest
    obtain ⟨pt₀, hcomes, hway, text, i, found, hscan, hn, hscopes, hbelow⟩ := opened_of_comes hpt above' f below'' hf
    obtain ⟨_, houter, hnamed⟩ := hs.prefixes _ hf
    refine ⟨pt₀, hcomes, hway, ⟨text, i, _, found, hscan, hn⟩, ?_, settled_marked ?_ hbelow⟩
    · exact hscopes.trans (List.prefix_iff_eq_take.mp (houter.trans hnamed))
    · have := sameRoot_of_transGen hway
      exact ⟨this.1.symm, this.2.symm⟩
  · intro text i found hnext
    have hrel := hs.marked_next text i
    rw [hnext] at hrel
    cases hn : h.next text i pt.state with
    | none =>
      rw [hn] at hrel
      cases hrel
    | some cm =>
      obtain ⟨c, m⟩ := cm
      rw [hn] at hrel
      obtain ⟨hmeans, _⟩ : pt.state.Means h.grammar .closing c ∧ found = m := by
        cases hrel with
        | some hmeans => exact hmeans
      cases hmeans with
      | @leave f below hf =>
        unfold State.marked
        rw [hf]
        cases below with
        | nil => exact ⟨_, _, _, rfl⟩
        | cons f' below => exact ⟨_, _, _, rfl⟩

/-- The marks of a run are nested at each of its points, and a mark gives back what was in force
where it was set; all tokens have words on top of the scope of the grammar. -/
theorem stack_discipline {engine : Engine} {source : Grammar.GrammarSource} {g : Grammar}
    (hg : Grammar.compile engine source = .ok g) (text : String) :
    (∀ pt, Comes ⟨g, engine⟩ ((Text.lines text).map String.toList) pt →
      Disciplined ⟨g, engine⟩ ((Text.lines text).map String.toList) pt) ∧
    ∀ t, tokenize ⟨g, engine⟩ text true = .ok t →
      ∀ tokens ∈ t.lines, ∀ token ∈ tokens, Scope.Rooted g.scopeName token.scopes :=
  ⟨fun _ hpt => disciplined_of_comes (Grammar.sound_of_compile hg) hpt, fun _ ht => rooted_tokenize ht⟩

end Highlighter

/-! ## A quotation that is open -/

namespace Quoting

open Grammar (GrammarSource RuleSource)

def source : GrammarSource where
  name := none
  scopeName := some "s"
  patterns := [{ RuleSource.empty with
    opening := some "<(.)"
    closing := some "\\1"
    name := some "quoted text"
    contentName := some "body" }]
  repository := []

def quotation : Region Nat Pattern where
  name := some "quoted text"
  contentName := some "body"
  opening := ⟨"<(.)", .seq (.text ['<']) (.group 1 (.set (.compl (.range 10 10)))), 1⟩
  openingCaptures := []
  closing := .backReferenced "\\1"
  closingCaptures := []
  patterns := []
  lasting := .untilClosed false

def grammar : Grammar where
  name := none
  scopeName := "s"
  rules := #[.container [1], .region quotation]
  candidates := #[[1], []]
  candidates_eq := by cbv

theorem compile_source : Grammar.compile .backtracking source = .ok grammar := by cbv

def highlighter : Highlighter :=
  ⟨grammar, .backtracking⟩

def opened : State where
  base := 0
  baseScopes := ["s"]
  frames := [⟨1, quotation, ⟨"\\*", .text ['*'], 0⟩, ["s"], ["s", "quoted", "text"], ["s", "quoted", "text", "body"], some 0⟩]

theorem reaches_opened : highlighter.Reaches [['<', '*', 'a']] (.scan 0 2 opened ⟨3, [⟨⟨0, 2⟩, ["s", "quoted", "text"]⟩]⟩) := by
  refine .tail (.single (.check rfl rfl)) (.step rfl ?_)
  cbv

end Quoting

/-- Inside the quotation two marks are set, and what is below the upper one is what there was
before it. -/
theorem stack_discipline_quoting :
    Grammar.compile .backtracking Quoting.source = .ok Quoting.grammar ∧
      Disciplined Quoting.highlighter [['<', '*', 'a']] (.scan 0 2 Quoting.opened ⟨3, [⟨⟨0, 2⟩, ["s", "quoted", "text"]⟩]⟩) := by
  have hlines : (Text.lines "<*a").map String.toList = [['<', '*', 'a']] := by rfl
  have hrun := (Highlighter.stack_discipline Quoting.compile_source "<*a").1
  rw [hlines] at hrun
  exact ⟨Quoting.compile_source, hrun _ Quoting.reaches_opened.comes⟩

end Highlight
