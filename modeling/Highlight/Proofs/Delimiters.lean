import Highlight.Proofs.Bytes
import Highlight.Proofs.Discipline
import Highlight.Proofs.Literals

/-!
# Delimiters

What comes next where only literal texts are looked for, and how a scan crosses the end of a
line where none of them stands. Nothing then depends on patterns but on where the texts stand.
-/

namespace Highlight

/-! ## Texts in a line -/

namespace Text

structure StandsFirst (t : String) (text : Array Char) (i x : Nat) : Prop where
  le : i ≤ x
  stands : StandsAt t text x
  first : ∀ j, i ≤ j → j < x → ¬StandsAt t text j

def Missing (t : String) (text : Array Char) (i : Nat) : Prop :=
  ∀ j, i ≤ j → ¬StandsAt t text j

variable {t : String} {text : Array Char} {i x : Nat}

theorem StandsAt.le_size (h : StandsAt t text x) (ht : t ≠ "") : x + t.length ≤ text.size := by
  have hle : t.toList.length ≤ (text.toList.drop x).length := h.length_le
  have hsize : text.toList.length = text.size := Array.length_toList
  rw [List.length_drop, String.length_toList, hsize] at hle
  have hpos : t.length ≠ 0 := fun hz => ht (String.length_eq_zero_iff.mp hz)
  omega

end Text

theorem firstFrom_of_first {α : Type} {f : Nat → Option α} {n i x : Nat} {a : α} (hx : f x = some a) (hi : i ≤ x)
    (hn : x < i + n) (hfirst : ∀ j, i ≤ j → j < x → f j = none) : firstFrom f n i = some a := by
  cases hf : firstFrom f n i with
  | none =>
    rw [firstFrom_eq_none.mp hf x hi hn] at hx
    cases hx
  | some b =>
    obtain ⟨j, h1, h2, h3, h4⟩ := firstFrom_eq_some hf
    have hjx : j = x := by
      rcases Nat.lt_trichotomy j x with hlt | heq | hgt
      · rw [hfirst j h1 hlt] at h3
        cases h3
      · exact heq
      · rw [h4 x hi hgt] at hx
        cases hx
    rw [← hx, ← hjx, h3]

/-! ## What comes next -/

namespace Highlighter

variable {h : Highlighter} {text : Array Char} {i x : Nat} {s : State} {c : Choice} {p : Pattern} {t : String}
  {captured : Nat → List (Option Span)}

theorem choiceAt_cons_of_stands {cs : List (Choice × Pattern)} (hp : h.engine.LooksFor p t captured) (ht : t ≠ "")
    (hx : Text.StandsAt t text x) : h.choiceAt text i ((c, p) :: cs) x = some (c, ⟨Text.spanAt t x, captured x⟩) := by
  have hsize := hx.le_size ht
  unfold choiceAt
  simp only [List.findSome?_cons, hp.found (by omega) hx, Option.map_some]

theorem choiceAt_cons_of_not {cs : List (Choice × Pattern)} (hp : h.engine.LooksFor p t captured)
    (hx : ¬Text.StandsAt t text x) : h.choiceAt text i ((c, p) :: cs) x = h.choiceAt text i cs x := by
  unfold choiceAt
  simp only [List.findSome?_cons, hp.missed hx, Option.map_none]

theorem next_eq_none (hnone : ∀ j, i ≤ j → h.choiceAt text i (s.choices h.grammar) j = none) : h.next text i s = none :=
  firstFrom_eq_none.mpr fun j hj _ => hnone j hj

theorem next_of_first {cm : Choice × Match} (hi : i ≤ x) (hx : x ≤ text.size)
    (hfound : h.choiceAt text i (s.choices h.grammar) x = some cm)
    (hnone : ∀ j, i ≤ j → j < x → h.choiceAt text i (s.choices h.grammar) j = none) : h.next text i s = some cm :=
  firstFrom_of_first hfound hi (by omega) hnone

end Highlighter

/-! ## Line ends -/

/-- No region is open that lasts as long as a condition holds. -/
def State.Unconditional (s : State) : Prop :=
  ∀ f ∈ s.frames, f.region.lasting ≠ .whileHolds

namespace Highlighter

variable {h : Highlighter} {lines : List (List Char)}

theorem checkConditions_of_unconditional {again : Retokenize} {text : Array Char} (start : Nat) (p : Painting) :
    ∀ {frames : List Frame}, (∀ f ∈ frames, f.region.lasting ≠ .whileHolds) →
      h.checkConditions again text start p frames = .ok (frames, start, p)
  | [], _ => rfl
  | f :: frames, hf => by
    obtain ⟨hlasting, hrest⟩ := List.forall_mem_cons.mp hf
    rw [checkConditions]
    cases hl : f.region.lasting with
    | whileHolds => exact absurd hl hlasting
    | untilClosed closingLast =>
      simp only [checkConditions_of_unconditional start p hrest, bind, Except.bind, pure, Except.pure]

/-- Where nothing comes next on a line, the next line starts with the same regions. -/
theorem advances_line {k i : Nat} {l l' : List Char} {s : State} {p : Painting} (hl : lines[k]? = some l)
    (hl' : lines[k + 1]? = some l') (hs : s.Unconditional) (hn : h.next (Text.withEnd l) i s = none) :
    Relation.ReflTransGen (h.Advances lines) (.scan k i s p) (.scan (k + 1) 0 s.atLineStart (.blank l'.length)) := by
  have hlt : k + 1 < lines.length := (List.getElem?_eq_some_iff.mp hl').1
  have hunconditional : ∀ f ∈ s.atLineStart.frames.reverse, f.region.lasting ≠ .whileHolds := by
    intro f hf
    obtain ⟨f', hf', rfl⟩ := List.mem_map.mp (List.mem_reverse.mp hf)
    exact hs f' hf'
  have hall : h.checkConditions (h.againIn (k + 1) l') (Text.withEnd l') 0 (.blank l'.length) s.atLineStart.frames.reverse =
      .ok (s.atLineStart.frames.reverse, 0, .blank l'.length) := checkConditions_of_unconditional 0 _ hunconditional
  have hcheck := Advances.check (s := s.atLineStart) hl' hall
  rw [List.reverse_reverse] at hcheck
  exact .tail (.single (.newline hl (step_of_next_eq_none h _ _ _ p hn) hlt)) hcheck

end Highlighter

/-! ## Openings -/

/-- Where the lines are being scanned a match opens a region, and the scan goes on after it. -/
structure Highlighter.Enters (h : Highlighter) (lines : List (List Char)) (k i : Nat) (l : List Char) (s : State)
    (p : Painting) (id : Nat) (m : Match) (f : Frame) (p' : Painting) : Prop where
  line : lines[k]? = some l
  reaches : h.Reaches lines (.scan k i s p)
  next : ∃ r, h.next (Text.withEnd l) i s = some (.enter id r, m)
  step : h.step (k + 1) (h.againIn k l) (Text.withEnd l) i s p = .ok (.next m.span.stop (s.push f) p')

namespace Highlighter.Enters

variable {h : Highlighter} {lines : List (List Char)} {k i id : Nat} {l : List Char} {s : State} {p p' : Painting}
  {m : Match} {f : Frame}

theorem advances (he : h.Enters lines k i l s p id m f p') :
    h.Advances lines (.scan k i s p) (.scan k m.span.stop (s.push f) p') :=
  .step he.line he.step

theorem reaches_inside (he : h.Enters lines k i l s p id m f p') :
    h.Reaches lines (.scan k m.span.stop (s.push f) p') :=
  he.reaches.tail he.advances

theorem exists_region (he : h.Enters lines k i l s p id m f p') : ∃ r, h.grammar.rules[id]? = some (.region r) := by
  obtain ⟨r, hn⟩ := he.next
  exact ⟨r, region_of_enter (next_eq_some hn).1.choose_spec⟩

theorem next_of_region (he : h.Enters lines k i l s p id m f p') {r : Region Nat Pattern}
    (hr : h.grammar.rules[id]? = some (.region r)) : h.next (Text.withEnd l) i s = some (.enter id r, m) := by
  obtain ⟨r', hn⟩ := he.next
  have hr' := region_of_enter (next_eq_some hn).1.choose_spec
  rw [hr, Option.some.injEq, Rule.region.injEq] at hr'
  rw [hn, hr']

theorem frame_eq (he : h.Enters lines k i l s p id m f p') {r : Region Nat Pattern}
    (hr : h.grammar.rules[id]? = some (.region r)) : ∃ closing,
      r.closing.resolve h.engine (k + 1) (m.texts (Text.withEnd l)) = .ok closing ∧
      f = s.opened (Text.withEnd l) i m id r closing := by
  have hstep := he.step
  rw [step_of_next_eq_some h (k + 1) _ _ p (he.next_of_region hr)] at hstep
  split at hstep
  · cases hstep
  · obtain ⟨q, _, hsettle⟩ := Results.bind_eq_ok.mp hstep
    obtain ⟨closing, hclosing, hnext⟩ := Results.map_eq_ok.mp hsettle
    refine ⟨closing, hclosing, ?_⟩
    rw [Progress.next.injEq, State.push, State.push, State.mk.injEq, List.cons.injEq] at hnext
    exact hnext.2.1.2.2.1.symm

end Highlighter.Enters

/-! ## Rules as they are written -/

namespace Grammar

variable {engine : Engine} {src : GrammarSource} {G : Grammar} {id : Nat} {s : RuleSource}

def GrammarSource.Compiles (src : GrammarSource) (G : Grammar) (id : Nat) (s : RuleSource) : Prop :=
  ∃ n, (src.draft G.scopeName).nodes[id]? = some n ∧ n.body = .rule s

theorem getElem?_region (hG : compile engine src = .ok G) {n : Node} (hn : (src.draft G.scopeName).nodes[id]? = some n)
    (hb : n.body = .rule s) {o c : String} (hpattern : s.pattern = none) (ho : s.opening = some o)
    (hc : s.closing = some c) : ∃ opening closing, engine.read o = .ok opening ∧
      (Closing.ofSource c).read (readPattern engine G.scopeName) = .ok closing ∧ G.rules[id]? = some (.region {
        name := s.name
        contentName := s.contentName
        opening := opening
        openingCaptures := (n.captures s .opening).map (·.renumber (src.draft G.scopeName).addresses.idxOf)
        closing := closing
        closingCaptures := (n.captures s .closing).map (·.renumber (src.draft G.scopeName).addresses.idxOf)
        patterns := ((n.targets s.patterns).map (·.address)).map (src.draft G.scopeName).addresses.idxOf
        lasting := .untilClosed s.closingLast }) := by
  obtain ⟨r, hr, hread⟩ := getElem?_rules hG hn
  have hshape : s.shape = .region o c (.untilClosed s.closingLast) := by
    unfold RuleSource.shape
    rw [hpattern, ho, hc]
  unfold Node.rule at hread
  simp only [hb, hshape] at hread
  obtain ⟨opening, closing, hopening, hclosing, rfl⟩ := Rule.read_region.mp hread
  exact ⟨opening, closing, Results.mapError_eq_ok.mp hopening, hclosing, hr⟩

end Grammar

end Highlight
