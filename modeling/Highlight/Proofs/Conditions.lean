import Highlight.Proofs.CaptureOrder
import Highlight.Proofs.CapturedBytes
import Highlight.Proofs.Discipline
import Highlight.Proofs.Preference

/-!
# Conditions at the start of a line

The conditions of open regions are checked from the outermost region inwards, each where the match
of the one before it ended. The regions that stay are the longest part of the stack in which all
of them hold in this way. This is so because the check goes through the stack as the chain of
matches does, and the chain is determined by the regions. Since a scan only leaves regions or puts
others on top, what is left of the stack on a line are regions that were checked on that line.
-/

namespace Highlight

namespace Highlighter

/-- The conditions of these regions, outermost first, hold one after another, from a position on. -/
inductive Hold (h : Highlighter) (text : Array Char) : Nat → List Frame → List (Frame × Match) → Nat → Prop
  | nil {i : Nat} : Hold h text i [] [] i
  | pass {i j : Nat} {f : Frame} {inner : List Frame} {held : List (Frame × Match)} {closingLast : Bool} :
    f.region.lasting = .untilClosed closingLast → Hold h text i inner held j → Hold h text i (f :: inner) held j
  | cons {i j : Nat} {f : Frame} {inner : List Frame} {held : List (Frame × Match)} {m : Match} :
    f.region.lasting = .whileHolds → h.engine.search f.closing text i = some m → m.span.start = i →
    Hold h text m.span.stop inner held j → Hold h text i (f :: inner) ((f, m) :: held) j

variable {h : Highlighter} {text : Array Char} {i j j' : Nat} {f : Frame} {frames inner : List Frame}
  {held held' : List (Frame × Match)} {m : Match}

/-! ## Chains of matches -/

theorem matchAt_self_iff {p : Pattern} (hi : i ≤ text.size) :
    h.engine.matchAt p text i i = some m ↔ h.engine.search p text i = some m ∧ m.span.start = i := by
  constructor
  · intro hm
    refine ⟨firstFrom_of_first hm (Nat.le_refl i) (by omega) ?_, (h.engine.bounds hi hm).1⟩
    intro k h1 h2
    omega
  · rintro ⟨hm, hstart⟩
    have := Engine.matchAt_of_search hm
    rwa [hstart] at this

namespace Hold

theorem of_pass {closingLast : Bool} (hold : h.Hold text i (f :: inner) held j)
    (hl : f.region.lasting = .untilClosed closingLast) : h.Hold text i inner held j := by
  cases hold with
  | pass _ hold => exact hold
  | cons hl' _ _ _ =>
    rw [hl] at hl'
    cases hl'

theorem exists_cons (hold : h.Hold text i (f :: inner) held j) (hl : f.region.lasting = .whileHolds) :
    ∃ m held', held = (f, m) :: held' ∧ h.engine.search f.closing text i = some m ∧ m.span.start = i ∧
      h.Hold text m.span.stop inner held' j := by
  cases hold with
  | pass hl' _ =>
    rw [hl] at hl'
    cases hl'
  | cons _ hm hstart hold => exact ⟨_, _, rfl, hm, hstart, hold⟩

theorem of_cons (hold : h.Hold text i (f :: inner) held j) (hl : f.region.lasting = .whileHolds)
    (hm : h.engine.search f.closing text i = some m) :
    ∃ held', held = (f, m) :: held' ∧ h.Hold text m.span.stop inner held' j := by
  obtain ⟨m', held', rfl, hm', _, hold⟩ := hold.exists_cons hl
  rw [hm] at hm'
  cases hm'
  exact ⟨held', rfl, hold⟩

theorem unique (h1 : h.Hold text i frames held j) (h2 : h.Hold text i frames held' j') : held = held' ∧ j = j' := by
  induction h1 generalizing held' with
  | nil =>
    cases h2
    exact ⟨rfl, rfl⟩
  | pass hl _ ih => exact ih (h2.of_pass hl)
  | cons hl hm _ _ ih =>
    obtain ⟨_, rfl, hinner⟩ := h2.of_cons hl hm
    obtain ⟨rfl, rfl⟩ := ih hinner
    exact ⟨rfl, rfl⟩

theorem of_append {outer : List Frame} (hold : h.Hold text i (outer ++ inner) held j) :
    ∃ before after mid, h.Hold text i outer before mid ∧ h.Hold text mid inner after j := by
  induction outer generalizing i held with
  | nil => exact ⟨[], held, i, .nil, hold⟩
  | cons f outer ih =>
    cases hold with
    | pass hl hold =>
      obtain ⟨before, after, mid, h1, h2⟩ := ih hold
      exact ⟨before, after, mid, .pass hl h1, h2⟩
    | @cons _ _ _ _ _ m hl hm hstart hold =>
      obtain ⟨before, after, mid, h1, h2⟩ := ih hold
      exact ⟨(f, m) :: before, after, mid, .cons hl hm hstart h1, h2⟩

theorem stop_eq (hold : h.Hold text i frames held j) : j = (held.getLast?.map (·.2.span.stop)).getD i := by
  induction hold with
  | nil => rfl
  | pass _ _ ih => exact ih
  | @cons _ _ _ _ held _ _ _ _ _ ih =>
    rw [List.getLast?_cons, ih]
    cases held.getLast? with
    | none => rfl
    | some x => rfl

theorem mem_frames (hold : h.Hold text i frames held j) (hf : (f, m) ∈ held) : f ∈ frames := by
  induction hold with
  | nil => cases hf
  | pass _ _ ih => exact List.mem_cons_of_mem _ (ih hf)
  | cons _ _ _ _ ih =>
    rcases List.mem_cons.mp hf with heq | hf
    · cases heq
      exact List.mem_cons_self ..
    · exact List.mem_cons_of_mem _ (ih hf)

theorem exists_match (hold : h.Hold text i frames held j) (hf : f ∈ frames) (hl : f.region.lasting = .whileHolds) :
    ∃ m, (f, m) ∈ held := by
  induction hold with
  | nil => cases hf
  | pass hl' _ ih =>
    rcases List.mem_cons.mp hf with rfl | hf
    · rw [hl] at hl'
      cases hl'
    · exact ih hf
  | @cons _ _ _ _ _ m _ _ _ _ ih =>
    rcases List.mem_cons.mp hf with rfl | hf
    · exact ⟨m, List.mem_cons_self ..⟩
    · obtain ⟨m', hm'⟩ := ih hf
      exact ⟨m', List.mem_cons_of_mem _ hm'⟩

/-- The matches lie side by side. -/
theorem exists_hasByte {l : List Char} {b : Nat} (hold : h.Hold text i frames held j) (hi : Text.offsetAt l i ≤ b)
    (hj : b < Text.offsetAt l j) : ∃ f m, (f, m) ∈ held ∧ m.span.hasByte l b = true := by
  induction hold with
  | nil => omega
  | pass _ _ ih => exact ih hi hj
  | @cons _ _ f _ _ m _ _ hstart _ ih =>
    by_cases hb : b < Text.offsetAt l m.span.stop
    · exact ⟨f, m, List.mem_cons_self .., Span.hasByte_iff.mpr ⟨by rwa [hstart], hb⟩⟩
    · obtain ⟨f', m', hmem, hbyte⟩ := ih (Nat.not_lt.mp hb) hj
      exact ⟨f', m', List.mem_cons_of_mem _ hmem, hbyte⟩

end Hold

/-! ## The check -/

variable {again : Retokenize} {p q : Painting} {stay : List Frame} {stop : Nat}

theorem hold_of_checkConditions (hi : i ≤ text.size)
    (hc : h.checkConditions again text i p frames = .ok (stay, stop, q)) :
    (∃ held, h.Hold text i stay held stop) ∧ ∃ rest, frames = stay ++ rest ∧
      ∀ f inner, rest = f :: inner → f.region.lasting = .whileHolds ∧
        ∀ m, h.engine.search f.closing text stop = some m → m.span.start ≠ stop := by
  induction frames generalizing i p stay with
  | nil =>
    cases hc
    exact ⟨⟨[], .nil⟩, [], rfl, by simp⟩
  | cons f frames ih =>
    rcases checkConditions_cases hc with ⟨_, ⟨stay', stop', q'⟩, hl, hc', he⟩ | ⟨hl, hm, he⟩ |
      ⟨m, p', ⟨stay', stop', q'⟩, hl, hm, _, hc', he⟩
    · cases he
      obtain ⟨⟨held, hold⟩, rest, rfl, hrest⟩ := ih hi hc'
      exact ⟨⟨held, .pass hl hold⟩, rest, rfl, hrest⟩
    · cases he
      refine ⟨⟨[], .nil⟩, f :: frames, rfl, ?_⟩
      intro g inner heq
      cases heq
      refine ⟨hl, ?_⟩
      intro m hsearch hstart
      rw [(matchAt_self_iff hi).mpr ⟨hsearch, hstart⟩] at hm
      cases hm
    · cases he
      obtain ⟨hsearch, hstart⟩ := (matchAt_self_iff hi).mp hm
      obtain ⟨⟨held, hold⟩, rest, rfl, hrest⟩ := ih (h.engine.bounds hi hm).2.2 hc'
      exact ⟨⟨(f, m) :: held, .cons hl hsearch hstart hold⟩, rest, rfl, hrest⟩

theorem prefix_of_hold (hi : i ≤ text.size) (hc : h.checkConditions again text i p frames = .ok (stay, stop, q))
    {longer : List Frame} (hlonger : longer <+: frames) (hold : h.Hold text i longer held j) : longer <+: stay := by
  obtain ⟨⟨held', hold'⟩, rest, rfl, hrest⟩ := hold_of_checkConditions hi hc
  rcases List.prefix_or_prefix_of_prefix hlonger (List.prefix_append stay rest) with hle | ⟨more, rfl⟩
  · exact hle
  · cases more with
    | nil => simp
    | cons f more =>
      -- the condition that failed would have to hold where it was checked
      obtain ⟨_, _, mid, h1, h2⟩ := hold.of_append
      obtain ⟨_, rfl⟩ := h1.unique hold'
      obtain ⟨inner, hinner⟩ := (List.prefix_append_right_inj stay).mp hlonger
      obtain ⟨hl, hfails⟩ := hrest f _ hinner.symm
      obtain ⟨m, _, _, hm, hstart, _⟩ := h2.exists_cons hl
      exact absurd hstart (hfails m hm)

end Highlighter

/-! ## What the check paints -/

def Painting.Shows (p : Painting) (text : Array Char) (line : List Char) (m : Match) (captures : List (Capture Nat))
    (scopes : List String) : Prop :=
  ∀ b, m.span.hasByte line b = true → ∃ above,
    p.scopesAt? line b = some (scopes ++ Active.names (m.texts text) (Active.atByte m captures line b) ++ above) ∧
    ((∀ a ∈ Active.atByte m captures line b, a.capture.patterns = none) → above = [])

namespace Highlighter

variable {h : Highlighter} {text : Array Char} {number depth i stop : Nat} {l : List Char} {frames stay : List Frame}
  {held : List (Frame × Match)} {p q : Painting}

theorem shows_of_checkConditions (hsorted : ∀ f ∈ frames, f.region.closingCaptures.Pairwise (·.group ≤ ·.group))
    (hi : i ≤ text.size) (hp : p.UpTo l.length i)
    (hc : h.checkConditions (h.scanWithin number depth) text i p frames = .ok (stay, stop, q))
    (hold : h.Hold text i stay held stop) :
    q.UpTo l.length stop ∧ (∀ b, b < Text.offsetAt l i → q.scopesAt? l b = p.scopesAt? l b) ∧
      ∀ f m, (f, m) ∈ held → q.Shows text l m f.region.closingCaptures f.named := by
  induction frames generalizing i p stay held with
  | nil =>
    cases hc
    cases hold
    exact ⟨hp, fun _ _ => rfl, by simp⟩
  | cons f frames ih =>
    obtain ⟨hsort, hsorted⟩ := List.forall_mem_cons.mp hsorted
    rcases checkConditions_cases hc with ⟨_, ⟨stay', stop', q'⟩, hl, hc', he⟩ | ⟨hl, hm, he⟩ |
      ⟨m, p', ⟨stay', stop', q'⟩, hl, hm, hp', hc', he⟩
    · cases he
      exact ih hsorted hi hp hc' (hold.of_pass hl)
    · cases he
      cases hold
      exact ⟨hp, fun _ _ => rfl, by simp⟩
    · cases he
      obtain ⟨held, rfl, hinner⟩ := hold.of_cons hl ((matchAt_self_iff hi).mp hm).1
      obtain ⟨hstart, hle, hsize⟩ := h.engine.bounds hi hm
      have hcaptured := Painting.captured_of_addMatch (by omega) hsize hsort (hstart ▸ hp) hp'
      have hbefore {b : Nat} (hb : b < Text.offsetAt l i) : m.span.hasByte l b = false := by
        rw [Bool.eq_false_iff, Ne, Span.hasByte_iff, hstart]
        omega
      obtain ⟨hupTo, hkept, hshows⟩ := ih hsorted hsize hcaptured.upTo hc' hinner
      refine ⟨hupTo, ?_, ?_⟩
      · intro b hb
        have := Text.offsetAt_mono l hle
        rw [hkept b (by omega), hcaptured.outside b (hbefore hb)]
      · intro g m' hmem
        rcases List.mem_cons.mp hmem with heq | hmem
        · -- what is checked further in is painted behind the match
          cases heq
          intro b hb
          rw [hkept b (Span.hasByte_iff.mp hb).2]
          exact hcaptured.inside b hb
        · exact hshows g m' hmem

end Highlighter

/-! ## Scopes of a region -/

def Frame.Scoped (f : Frame) : Prop :=
  ∃ groups, f.named = f.outer ++ Scope.ofTemplate f.region.name groups ∧
    f.inner = f.named ++ Scope.ofTemplate f.region.contentName groups

namespace Highlighter

variable {h : Highlighter} {lines : List (List Char)}

theorem scoped_of_turn {number : Nat} {text : Array Char} {start : Nat} {s s' : State} (hs : ∀ f ∈ s.frames, f.Scoped)
    (ht : h.Turn number text start s s') : ∀ f ∈ s'.frames, f.Scoped := by
  cases ht with
  | stay => exact hs
  | leave hf => exact fun f hm => hs f (by simp [hf, hm])
  | @enter id r m closing _ _ => exact List.forall_mem_cons.mpr ⟨⟨m.texts text, rfl, rfl⟩, hs⟩

theorem scoped_of_comes {pt : Point} (hpt : h.Comes lines pt) : ∀ f ∈ pt.state.frames, f.Scoped := by
  induction hpt with
  | refl => simp [startPoint, Point.state, State.start]
  | tail _ hl ih =>
    rcases hl with hl | ho
    · cases hl with
      | check _ hc =>
        intro f hf
        have hf := (prefix_of_checkConditions hc).subset (List.mem_reverse.mp hf)
        exact ih f (List.mem_reverse.mp hf)
      | step _ hs => exact scoped_of_turn ih (turn_of_step hs)
      | newline _ hs _ =>
        intro f hf
        obtain ⟨f', hf', rfl⟩ := List.mem_map.mp hf
        exact scoped_of_turn ih (turn_of_step hs) f' hf'
      | again hs => exact scoped_of_turn ih (turn_of_step hs)
    · cases ho
      simp [Point.state, State.start]

/-! ## The points of a run -/

theorem reaches_of_scan {k i : Nat} {l : List Char} {s : State} {p : Painting} (hl : lines[k]? = some l)
    (hpt : h.Reaches lines (.scan k i s p)) {e : State × Painting}
    (he : h.scan (k + 1) (h.againIn k l) (Text.withEnd l) i s p = .ok e) :
    ∃ i' s' p', h.Reaches lines (.scan k i' s' p') ∧
      h.step (k + 1) (h.againIn k l) (Text.withEnd l) i' s' p' = .ok (.done e.1 e.2) := by
  induction i, s, p using scan.induct h (k + 1) (h.againIn k l) (Text.withEnd l) with
  | case1 i s p err hstep =>
    rw [scan_of_error hstep] at he
    cases he
  | case2 i s p s' p' hstep =>
    rw [scan_of_done hstep] at he
    cases he
    exact ⟨i, s, p, hpt, hstep⟩
  | case3 i s p i' s' p' hstep ih =>
    rw [scan_of_next hstep] at he
    exact ih (hpt.tail (.step hl hstep)) he

/-- By induction on the lines: the scan of each runs to its end, which leads to the next. -/
theorem reaches_of_begun : ∀ {k : Nat} {s : State}, k < lines.length → h.Begun lines (.line k s) → h.Reaches lines (.line k s)
  | 0, _, _, ⟨_, _, hb, hs⟩ => by
    cases hb
    cases hs
    exact .refl
  | k + 1, s, hk, ⟨s₀, ps, hb, hs⟩ => by
    have hl : lines[k]? = some lines[k] := List.getElem?_eq_getElem (by omega)
    have htake : lines.take (k + 1) = lines.take k ++ [lines[k]] := by
      rw [List.take_add_one, hl]
      rfl
    rw [htake] at hb
    cases hbefore : h.paintLines 1 (.start 0 [h.grammar.scopeName]) (lines.take k) with
    | error e =>
      rw [paintLines_append_of_error _ hbefore] at hb
      cases hb
    | ok e =>
      have hlen : 1 + (lines.take k).length = k + 1 := by
        rw [List.length_take_of_le (by omega), Nat.add_comm]
      rw [paintLines_append_of_ok _ hbefore, hlen] at hb
      obtain ⟨e', hb, heq⟩ := Results.map_eq_ok.mp hb
      rw [paintLines] at hb
      obtain ⟨⟨s', p'⟩, hline, hb⟩ := Results.bind_eq_ok.mp hb
      cases hb
      cases heq
      obtain ⟨⟨stay, stop, q⟩, hc, hscan⟩ := Results.bind_eq_ok.mp hline
      have hreach := reaches_of_begun (by omega) ⟨e.1, e.2, hbefore, rfl⟩
      obtain ⟨_, _, _, hreach, hdone⟩ := reaches_of_scan hl (hreach.tail (.check hl hc)) hscan
      rw [hs]
      exact hreach.tail (.newline hl hdone hk)

/-! ## On a line -/

def EnteredOn (h : Highlighter) (lines : List (List Char)) (k : Nat) (l : List Char) (s₀ : State) (pt : Point) (f : Frame) :
    Prop :=
  ∃ i s p m, Relation.TransGen (h.Advances lines) (.line k s₀) (.scan k i s p) ∧
    Relation.TransGen (h.Advances lines) (.scan k i s p) pt ∧
    h.next (Text.withEnd l) i s = some (.enter f.rule f.region, m)

variable {k i : Nat} {l : List Char} {s : State} {p : Painting}

theorem EnteredOn.advances {s₀ : State} {a b : Point} {f : Frame} (hf : h.EnteredOn lines k l s₀ a f)
    (hl : h.Advances lines a b) : h.EnteredOn lines k l s₀ b f := by
  obtain ⟨i, s, p, m, h1, h2, h3⟩ := hf
  exact ⟨i, s, p, m, h1, h2.tail hl, h3⟩

/-- By induction on the way: a turn leaves the top of the stack, or puts a region on it. -/
theorem kept_of_reaches (hl : lines[k]? = some l) (hpt : h.Reaches lines (.scan k i s p)) :
    ∃ s₀ stay stop q entered kept, h.Reaches lines (.line k s₀) ∧
      Relation.TransGen (h.Advances lines) (.line k s₀) (.scan k i s p) ∧
      h.checkConditions (h.againIn k l) (Text.withEnd l) 0 (.blank l.length) s₀.frames.reverse = .ok (stay, stop, q) ∧
      s.frames = entered ++ kept ∧ kept <:+ stay.reverse ∧ ∀ f ∈ entered, h.EnteredOn lines k l s₀ (.scan k i s p) f := by
  generalize hb : Point.scan k i s p = b at hpt
  induction hpt generalizing i s p with
  | refl => cases hb
  | tail hreach hadv ih =>
    subst hb
    have hadvances := hadv
    cases hadv with
    | @check _ _ l' s₀ stay _ hk hc =>
      rw [hl] at hk
      cases hk
      exact ⟨s₀, stay, i, p, [], stay.reverse, hreach, .single hadvances, hc, rfl, List.suffix_rfl, by simp⟩
    | @step _ i' _ l' s' _ p' _ hk hs =>
      rw [hl] at hk
      cases hk
      obtain ⟨s₀, stay, stop, q, entered, kept, h1, h2, h3, h4, h5, h6⟩ := ih rfl
      have hentered : ∀ f ∈ entered, h.EnteredOn lines k l s₀ (.scan k i s p) f := fun f hf => (h6 f hf).advances hadvances
      have hturn : h.Turn (k + 1) (Text.withEnd l) i' s' s := turn_of_step hs
      cases hturn with
      | stay => exact ⟨s₀, stay, stop, q, entered, kept, h1, h2.tail hadvances, h3, h4, h5, hentered⟩
      | @leave f below hf =>
        rw [hf] at h4
        cases entered with
        | nil =>
          refine ⟨s₀, stay, stop, q, [], below, h1, h2.tail hadvances, h3, rfl, ?_, by simp⟩
          exact ((List.suffix_cons f below).trans (h4 ▸ List.suffix_rfl)).trans h5
        | cons g entered =>
          obtain ⟨rfl, rfl⟩ := List.cons.inj h4
          exact ⟨s₀, stay, stop, q, entered, kept, h1, h2.tail hadvances, h3, rfl, h5,
            fun g hg => hentered g (List.mem_cons_of_mem f hg)⟩
      | @enter id r m closing hn _ =>
        refine ⟨s₀, stay, stop, q, s'.opened (Text.withEnd l) i' m id r closing :: entered, kept, h1, h2.tail hadvances, h3,
          congrArg (_ :: ·) h4, h5, List.forall_mem_cons.mpr ⟨?_, hentered⟩⟩
        exact ⟨i', s', p', m, h2, .single hadvances, hn⟩

/-! ## Runs -/

/-- What the check at the start of a line comes to. -/
structure Checked (h : Highlighter) (lines : List (List Char)) (k : Nat) (l : List Char) (s : State) (stay : List Frame)
    (stop : Nat) (p : Painting) : Prop where
  kept : stay <+: s.frames.reverse
  longest : ∀ longer held j, longer <+: s.frames.reverse → h.Hold (Text.withEnd l) 0 longer held j → longer <+: stay
  /-- The first region whose condition fails is gone, with its scopes and all inside it. -/
  cut : ∀ f inner, s.frames.reverse = stay ++ f :: inner → f.region.lasting = .whileHolds ∧
    (∀ m, h.engine.search f.closing (Text.withEnd l) stop = some m → m.span.start ≠ stop) ∧
    ({ s with frames := stay.reverse } : State).scopes = f.outer ∧
    ∃ pt₀, h.Comes lines pt₀ ∧ Relation.TransGen (h.Advances lines) pt₀ (.line k s) ∧
      h.Entering lines f stay.reverse pt₀
  /-- In the other form the marks of these are gone and the list of scopes is cut. -/
  marked : s.marked.check h (h.againIn k l) (Text.withEnd l) (.blank l.length) =
    .ok (({ s with frames := stay.reverse } : State).marked, stop, p)
  painted : ∃ held, h.Hold (Text.withEnd l) 0 stay held stop ∧ stop = (held.getLast?.map (·.2.span.stop)).getD 0 ∧
    (∀ b, b < Text.offsetAt l stop → ∃ f m, (f, m) ∈ held ∧ m.span.hasByte l b = true) ∧
    (∀ f m, (f, m) ∈ held → f.Scoped ∧ p.Shows (Text.withEnd l) l m f.region.closingCaptures f.named) ∧
    ∀ b, Text.offsetAt l stop ≤ b → p.scopesAt? l b = none

/-- The regions that were open before this line are ones whose conditions held on it, and the
others were entered on it. -/
def Lasts (h : Highlighter) (lines : List (List Char)) (k : Nat) (l : List Char) (i : Nat) (s : State) (p : Painting) :
    Prop :=
  ∃ s₀ stay stop q held, h.Reaches lines (.line k s₀) ∧
    Relation.TransGen (h.Advances lines) (.line k s₀) (.scan k i s p) ∧
    h.checkConditions (h.againIn k l) (Text.withEnd l) 0 (.blank l.length) s₀.frames.reverse = .ok (stay, stop, q) ∧
    h.Hold (Text.withEnd l) 0 stay held stop ∧
    ∃ entered kept, s.frames = entered ++ kept ∧ kept <:+ s₀.frames ∧
      (∀ f ∈ kept, f.region.lasting = .whileHolds → ∃ m, (f, m) ∈ held) ∧
      ∀ f ∈ entered, h.EnteredOn lines k l s₀ (.scan k i s p) f

theorem checked_of_reaches (hlawful : s.Lawful h.grammar)
    (hsorted : ∀ f ∈ s.frames, f.region.closingCaptures.Pairwise (·.group ≤ ·.group))
    (hpt : h.Reaches lines (.line k s)) {stay : List Frame} {stop : Nat}
    (hc : h.checkConditions (h.againIn k l) (Text.withEnd l) 0 (.blank l.length) s.frames.reverse = .ok (stay, stop, p)) :
    h.Checked lines k l s stay stop p := by
  obtain ⟨⟨held, hold⟩, rest, hsplit, hfails⟩ := hold_of_checkConditions (Nat.zero_le _) hc
  obtain ⟨hupTo, _, hshows⟩ := shows_of_checkConditions (fun f hf => hsorted f (List.mem_reverse.mp hf)) (Nat.zero_le _)
    (Painting.upTo_blank l.length) hc hold
  have hscoped {f : Frame} {m : Match} (hf : (f, m) ∈ held) : f.Scoped := by
    have hframes : f ∈ s.frames.reverse := by
      rw [hsplit]
      exact List.mem_append_left rest (hold.mem_frames hf)
    exact scoped_of_comes hpt.comes f (List.mem_reverse.mp hframes)
  refine ⟨⟨rest, hsplit.symm⟩, ?_, ?_, ?_, held, hold, hold.stop_eq, ?_, ?_, ?_⟩
  · intro longer held' j hlonger hold'
    exact prefix_of_hold (Nat.zero_le _) hc hlonger hold'
  · intro f inner hf
    obtain ⟨hl, hnone⟩ := hfails f inner (List.append_cancel_left (hsplit.symm.trans hf))
    have hframes : s.frames = inner.reverse ++ f :: stay.reverse := by
      rw [List.reverse_eq_iff.mp hf]
      simp
    refine ⟨hl, hnone, (hlawful.prefixes _ hframes).1.symm, opened_of_comes hpt.comes _ _ _ hframes⟩
  · rw [hlawful.marked_check, hc]
    rfl
  · intro b hb
    exact hold.exists_hasByte (by simp [Text.offsetAt_zero]) hb
  · intro f m hf
    exact ⟨hscoped hf, hshows f m hf⟩
  · intro b hb
    exact hupTo.scopesAt?_eq_none hb

theorem lasts_of_reaches (hl : lines[k]? = some l) (hpt : h.Reaches lines (.scan k i s p)) : h.Lasts lines k l i s p := by
  obtain ⟨s₀, stay, stop, q, entered, kept, h1, h2, h3, h4, h5, h6⟩ := kept_of_reaches hl hpt
  obtain ⟨⟨held, hold⟩, rest, hsplit, _⟩ := hold_of_checkConditions (Nat.zero_le _) h3
  refine ⟨s₀, stay, stop, q, held, h1, h2, h3, hold, entered, kept, h4, h5.trans ?_, ?_, h6⟩
  · rw [List.reverse_eq_iff.mp hsplit, List.reverse_suffix]
    exact List.prefix_append ..
  · intro f hf hwhile
    exact hold.exists_match (List.mem_reverse.mp (h5.subset hf)) hwhile

/-- A line starts where the lines before it have been painted. There the longest part of the stack
stays in which all conditions hold one after another, and on the line all that is left of an
earlier one is a region whose condition has held. -/
theorem conditions_hold {engine : Engine} {source : Grammar.GrammarSource} {g : Grammar}
    (hg : Grammar.compile engine source = .ok g) (text : String) :
    (∀ k s, k < ((Text.lines text).map String.toList).length →
      (Reaches ⟨g, engine⟩ ((Text.lines text).map String.toList) (.line k s) ↔
        Begun ⟨g, engine⟩ ((Text.lines text).map String.toList) (.line k s))) ∧
    (∀ k l s stay stop p, ((Text.lines text).map String.toList)[k]? = some l →
      Reaches ⟨g, engine⟩ ((Text.lines text).map String.toList) (.line k s) →
      checkConditions ⟨g, engine⟩ (againIn ⟨g, engine⟩ k l) (Text.withEnd l) 0 (.blank l.length) s.frames.reverse =
        .ok (stay, stop, p) →
      Checked ⟨g, engine⟩ ((Text.lines text).map String.toList) k l s stay stop p) ∧
    ∀ k l i s p, ((Text.lines text).map String.toList)[k]? = some l →
      Reaches ⟨g, engine⟩ ((Text.lines text).map String.toList) (.scan k i s p) →
      Lasts ⟨g, engine⟩ ((Text.lines text).map String.toList) k l i s p := by
  refine ⟨?_, ?_, ?_⟩
  · intro k s hk
    exact ⟨begun_of_reaches, reaches_of_begun hk⟩
  · intro k l s stay stop p _ hpt hc
    have hlawful : s.Lawful g := lawful_of_comes (Grammar.sound_of_compile hg) hpt.comes
    apply checked_of_reaches hlawful ?_ hpt hc
    intro f hf
    exact (Grammar.capturesSorted_of_compile hg (hlawful.frames f hf).region).2
  · intro k l i s p hl hpt
    exact lasts_of_reaches hl hpt

end Highlighter

/-! ## A list in a quotation -/

namespace Listed

open Grammar (GrammarSource RuleSource)

def source : GrammarSource where
  name := none
  scopeName := some "s"
  patterns := [{ RuleSource.empty with
    opening := some ">"
    condition := some ">"
    name := some "quote"
    contentName := some "body"
    patterns := [{ RuleSource.empty with
      opening := some "-"
      condition := some "-"
      name := some "list" }] }]
  repository := []

def quotation : Region Nat Pattern where
  name := some "quote"
  contentName := some "body"
  opening := ⟨">", .text ['>'], 0⟩
  openingCaptures := []
  closing := .fixed ⟨">", .text ['>'], 0⟩
  closingCaptures := []
  patterns := [2]
  lasting := .whileHolds

def list : Region Nat Pattern where
  name := some "list"
  contentName := none
  opening := ⟨"-", .text ['-'], 0⟩
  openingCaptures := []
  closing := .fixed ⟨"-", .text ['-'], 0⟩
  closingCaptures := []
  patterns := []
  lasting := .whileHolds

def grammar : Grammar where
  name := none
  scopeName := "s"
  rules := #[.container [1], .region quotation, .region list]
  candidates := #[[1], [2], []]
  candidates_eq := by cbv

theorem compile_source : Grammar.compile .backtracking source = .ok grammar := by cbv

def highlighter : Highlighter :=
  ⟨grammar, .backtracking⟩

def outer : Frame :=
  ⟨1, quotation, ⟨">", .text ['>'], 0⟩, ["s"], ["s", "quote"], ["s", "quote", "body"], none⟩

def inner : Frame :=
  ⟨2, list, ⟨"-", .text ['-'], 0⟩, ["s", "quote", "body"], ["s", "quote", "body", "list"], ["s", "quote", "body", "list"], none⟩

def nested : State :=
  ⟨0, ["s"], [inner, outer]⟩

def painted : Painting :=
  ⟨2, [⟨⟨0, 1⟩, ["s", "quote"]⟩]⟩

theorem reaches_nested : highlighter.Reaches [['>', '-'], ['>', 'x']] (.line 1 nested) := by
  have hstart : highlighter.Advances [['>', '-'], ['>', 'x']] (.line 0 (.start 0 ["s"]))
      (.scan 0 0 ⟨0, ["s"], [].reverse⟩ (.blank 2)) := .check rfl rfl
  have hquote : highlighter.Advances [['>', '-'], ['>', 'x']] (.scan 0 0 (.start 0 ["s"]) (.blank 2))
      (.scan 0 1 ⟨0, ["s"], [{ outer with enteredAt := some 0 }]⟩ painted) := .step rfl (by cbv)
  have hlist : highlighter.Advances [['>', '-'], ['>', 'x']]
      (.scan 0 1 ⟨0, ["s"], [{ outer with enteredAt := some 0 }]⟩ painted)
      (.scan 0 2 ⟨0, ["s"], [{ inner with enteredAt := some 1 }, { outer with enteredAt := some 0 }]⟩
        ⟨2, ⟨⟨1, 2⟩, ["s", "quote", "body", "list"]⟩ :: painted.stretches⟩) := .step rfl (by cbv)
  have hend : highlighter.step 1 (highlighter.againIn 0 ['>', '-']) (Text.withEnd ['>', '-']) 2
      ⟨0, ["s"], [{ inner with enteredAt := some 1 }, { outer with enteredAt := some 0 }]⟩
      ⟨2, ⟨⟨1, 2⟩, ["s", "quote", "body", "list"]⟩ :: painted.stretches⟩ =
      .ok (.done ⟨0, ["s"], [{ inner with enteredAt := some 1 }, { outer with enteredAt := some 0 }]⟩
        ⟨2, ⟨⟨1, 2⟩, ["s", "quote", "body", "list"]⟩ :: painted.stretches⟩) := by rfl
  exact (((Relation.ReflTransGen.single hstart).tail hquote).tail hlist).tail (.newline rfl hend (by decide))

theorem check_nested : highlighter.checkConditions (highlighter.againIn 1 ['>', 'x']) (Text.withEnd ['>', 'x']) 0 (.blank 2)
    nested.frames.reverse = .ok ([outer], 1, painted) := by
  cbv

end Listed

/-- The second line goes on with the quotation and ends the list. -/
theorem conditions_hold_listed :
    Grammar.compile .backtracking Listed.source = .ok Listed.grammar ∧
      Listed.highlighter.Checked [['>', '-'], ['>', 'x']] 1 ['>', 'x'] Listed.nested [Listed.outer] 1 Listed.painted ∧
      Listed.highlighter.Lasts [['>', '-'], ['>', 'x']] 1 ['>', 'x'] 1 { Listed.nested with frames := [Listed.outer] }
        Listed.painted := by
  have hlines : (Text.lines ">-\n>x").map String.toList = [['>', '-'], ['>', 'x']] := by rfl
  obtain ⟨_, hstarts, hscans⟩ := Highlighter.conditions_hold Listed.compile_source ">-\n>x"
  rw [hlines] at hstarts hscans
  have hcheck : Listed.highlighter.Advances [['>', '-'], ['>', 'x']] (.line 1 Listed.nested) (.scan 1 1 _ Listed.painted) :=
    .check rfl Listed.check_nested
  exact ⟨Listed.compile_source, hstarts _ _ _ _ _ _ rfl Listed.reaches_nested Listed.check_nested,
    hscans _ _ _ _ _ rfl (Listed.reaches_nested.tail hcheck)⟩

end Highlight
