import Highlight.Proofs.Composition
import Mathlib.Logic.Relation

/-!
# Runs

A run is told as a way from point to point: at each point the conditions of a line are about
to be checked, or a scan is about to take a step. Captures open scans of their own, which run
to their end before the point that opened them leads on.
-/

namespace Highlight

def Text.withEnd (l : List Char) : Array Char :=
  (l ++ [lineEnd]).toArray

theorem Text.size_withEnd (l : List Char) : (withEnd l).size = l.length + 1 := by
  simp [withEnd]

inductive Point where
  /-- The conditions at the start of a line are to be checked. -/
  | line (index : Nat) (s : State)
  | scan (index position : Nat) (s : State) (p : Painting)
  /-- The text of a capture is being scanned, on the line of this number, where captures in it
  are tokenized again up to this depth. -/
  | again (number depth : Nat) (text : Array Char) (position : Nat) (s : State) (p : Painting)

def Point.state : Point → State
  | line _ s => s
  | scan _ _ s _ => s
  | again _ _ _ _ s _ => s

def Point.scanned? (lines : List (List Char)) : Point → Option (Array Char × Nat)
  | line _ _ => none
  | scan k i _ _ => (lines[k]?).map fun l => (Text.withEnd l, i)
  | again _ _ text i _ _ => some (text, i)

structure Task where
  number : Nat
  depth : Nat
  text : Array Char
  found : Match
  captures : List (Capture Nat)
  scopes : List String
  painting : Painting

namespace Highlighter

variable (h : Highlighter) (lines : List (List Char))

def depthIn (l : List Char) : Nat :=
  captureDepth h.grammar (Text.withEnd l).size

def againIn (k : Nat) (l : List Char) : Retokenize :=
  h.scanWithin (k + 1) (h.depthIn l)

inductive Checks (again : Retokenize) (text : Array Char) :
    Nat → Painting → List Frame → Frame → Match → Painting → Prop
  | here {i : Nat} {p : Painting} {f : Frame} {inner : List Frame} {m : Match} :
    f.region.lasting = .whileHolds → h.engine.matchAt f.closing text i i = some m → Checks again text i p (f :: inner) f m p
  | pass {i : Nat} {p p' : Painting} {f g : Frame} {inner : List Frame} {m : Match} {closingLast : Bool} :
    f.region.lasting = .untilClosed closingLast → Checks again text i p inner g m p' → Checks again text i p (f :: inner) g m p'
  | after {i : Nat} {p q p' : Painting} {f g : Frame} {inner : List Frame} {m m' : Match} :
    f.region.lasting = .whileHolds → h.engine.matchAt f.closing text i i = some m →
    p.addMatch again text m f.region.closingCaptures f.named = .ok q → Checks again text m.span.stop q inner g m' p' →
    Checks again text i p (f :: inner) g m' p'

/-- From one point to the next, in the lines or in the text of a capture. -/
inductive Advances : Point → Point → Prop
  | check {k start : Nat} {l : List Char} {s : State} {stay : List Frame} {p : Painting} : lines[k]? = some l →
    h.checkConditions (h.againIn k l) (Text.withEnd l) 0 (.blank l.length) s.frames.reverse = .ok (stay, start, p) →
    Advances (.line k s) (.scan k start { s with frames := stay.reverse } p)
  | step {k i j : Nat} {l : List Char} {s s' : State} {p p' : Painting} : lines[k]? = some l →
    h.step (k + 1) (h.againIn k l) (Text.withEnd l) i s p = .ok (.next j s' p') → Advances (.scan k i s p) (.scan k j s' p')
  | newline {k i : Nat} {l : List Char} {s s' : State} {p p' : Painting} : lines[k]? = some l →
    h.step (k + 1) (h.againIn k l) (Text.withEnd l) i s p = .ok (.done s' p') → k + 1 < lines.length →
    Advances (.scan k i s p) (.line (k + 1) s'.atLineStart)
  | again {number depth i j : Nat} {text : Array Char} {s s' : State} {p p' : Painting} :
    h.step number (h.scanWithin number depth) text i s p = .ok (.next j s' p') →
    Advances (.again number depth text i s p) (.again number depth text j s' p')

inductive Finds : Point → Task → Prop
  | scan {k i : Nat} {l : List Char} {s : State} {p : Painting} {c : Choice} {m : Match} {captures : List (Capture Nat)}
    {scopes : List String} : lines[k]? = some l → h.next (Text.withEnd l) i s = some (c, m) →
    s.painted? (Text.withEnd l) i m c = some (captures, scopes) →
    Finds (.scan k i s p) ⟨k + 1, h.depthIn l, Text.withEnd l, m, captures, scopes, p.paint i m.span.start s.scopes⟩
  | again {number depth i : Nat} {text : Array Char} {s : State} {p : Painting} {c : Choice} {m : Match}
    {captures : List (Capture Nat)} {scopes : List String} : h.next text i s = some (c, m) →
    s.painted? text i m c = some (captures, scopes) →
    Finds (.again number depth text i s p) ⟨number, depth, text, m, captures, scopes, p.paint i m.span.start s.scopes⟩
  | condition {k : Nat} {l : List Char} {s : State} {f : Frame} {m : Match} {p : Painting} : lines[k]? = some l →
    h.Checks (h.againIn k l) (Text.withEnd l) 0 (.blank l.length) s.frames.reverse f m p →
    Finds (.line k s) ⟨k + 1, h.depthIn l, Text.withEnd l, m, f.region.closingCaptures, f.named, p⟩

inductive Opens : Point → Point → Prop
  | mk {pt : Point} {t : Task} {depth rule : Nat} {before after : List Segment} {seg : Segment} {p : Painting} :
    h.Finds lines pt t → t.found.span.start ≠ t.found.span.stop → t.captures.isEmpty = false →
    Segment.ofMatch t.text t.found t.captures t.scopes = before ++ seg :: after →
    before.foldlM (Painting.addSegment (h.scanWithin t.number t.depth) t.text) t.painting = .ok p →
    seg.again = some rule → t.depth = depth + 1 →
    Opens pt (.again t.number depth (t.text.extract 0 seg.span.stop) seg.span.start (.start rule seg.scopes) p)

def startPoint : Point :=
  .line 0 (.start 0 [h.grammar.scopeName])

def Reaches (pt : Point) : Prop :=
  Relation.ReflTransGen (h.Advances lines) h.startPoint pt

/-- The points of a whole run, those in captures with the others. -/
def Comes (pt : Point) : Prop :=
  Relation.ReflTransGen (fun a b => h.Advances lines a b ∨ h.Opens lines a b) h.startPoint pt

/-! ## Turns -/

inductive Turn (number : Nat) (text : Array Char) (start : Nat) (s : State) : State → Prop
  | stay : Turn number text start s s
  | leave {f : Frame} {below : List Frame} : s.frames = f :: below → Turn number text start s { s with frames := below }
  | enter {id : Nat} {r : Region Nat Pattern} {m : Match} {closing : Pattern} :
    h.next text start s = some (.enter id r, m) → r.closing.resolve h.engine number (m.texts text) = .ok closing →
    Turn number text start s (s.push (s.opened text start m id r closing))

variable {h lines} {number : Nat} {again : Retokenize} {text : Array Char} {start : Nat} {s : State} {p : Painting}

theorem turn_of_settle {c : Choice} {m : Match} {r : Progress} (hn : h.next text start s = some (c, m))
    (hr : h.settle number text start s m p c = .ok r) : h.Turn number text start s r.state := by
  cases c with
  | leave f below =>
    obtain ⟨⟨_, hc⟩, _⟩ := next_eq_some hn
    have hf := State.frames_of_leave_mem hc
    simp only [settle, Except.ok.injEq] at hr
    subst hr
    split
    · exact .leave hf
    · exact .leave hf
  | piece name captures =>
    simp only [settle, Except.ok.injEq] at hr
    subst hr
    split
    · exact .stay
    · exact .stay
  | enter id r =>
    obtain ⟨closing, hclosing, rfl⟩ := Results.map_eq_ok.mp hr
    exact .enter hn hclosing

theorem turn_of_step {r : Progress} (hr : h.step number again text start s p = .ok r) :
    h.Turn number text start s r.state := by
  cases hn : h.next text start s with
  | none =>
    rw [step_of_next_eq_none h number again text p hn] at hr
    cases hr
    exact .stay
  | some cm =>
    obtain ⟨c, m⟩ := cm
    rw [step_of_next_eq_some h number again text p hn] at hr
    split at hr
    · cases hr
      exact .stay
    · obtain ⟨q, _, hr⟩ := Results.bind_eq_ok.mp hr
      exact turn_of_settle hn hr

theorem mem_of_checks {i : Nat} {p p' : Painting} {frames : List Frame} {f : Frame} {m : Match}
    (hc : h.Checks again text i p frames f m p') : f ∈ frames := by
  induction hc with
  | here => exact List.mem_cons_self ..
  | pass _ _ ih => exact List.mem_cons_of_mem _ ih
  | after _ _ _ _ ih => exact List.mem_cons_of_mem _ ih

/-! ## Points and lines -/

theorem Reaches.comes {pt : Point} (hpt : h.Reaches lines pt) : h.Comes lines pt := by
  induction hpt with
  | refl => exact .refl
  | tail _ hl ih => exact ih.tail (.inl hl)

/-- The lines before a point have been painted, and the scan that it is in is that of its line. -/
def Begun (h : Highlighter) (lines : List (List Char)) : Point → Prop
  | .line k s => ∃ s₀ ps, h.paintLines 1 (.start 0 [h.grammar.scopeName]) (lines.take k) = .ok (s₀, ps) ∧
      s = s₀.atLineStart
  | .scan k i s p => ∃ s₀ ps l, h.paintLines 1 (.start 0 [h.grammar.scopeName]) (lines.take k) = .ok (s₀, ps) ∧
      lines[k]? = some l ∧
      h.paintLine (k + 1) l s₀ = h.scan (k + 1) (h.againIn k l) (Text.withEnd l) i s p
  | .again .. => False

theorem begun_of_advances {a b : Point} (ha : h.Begun lines a) (hl : h.Advances lines a b) : h.Begun lines b := by
  cases hl with
  | @check k start l s stay p hk hc =>
    obtain ⟨s₀, ps, hb, rfl⟩ := ha
    refine ⟨s₀, ps, l, hb, hk, ?_⟩
    show (h.checkConditions (h.againIn k l) (Text.withEnd l) 0 (.blank l.length) s₀.atLineStart.frames.reverse >>= _) = _
    rw [hc]
    rfl
  | step hk hs =>
    obtain ⟨s₀, ps, l', hb, hk', hscan⟩ := ha
    rw [hk, Option.some.injEq] at hk'
    subst hk'
    exact ⟨s₀, ps, _, hb, hk, hscan.trans (scan_of_next hs)⟩
  | @newline k i l s s' p p' hk hs hlt =>
    obtain ⟨s₀, ps, l', hb, hk', hscan⟩ := ha
    rw [hk, Option.some.injEq] at hk'
    subst hk'
    refine ⟨s', ps ++ [p'], ?_, rfl⟩
    have htake : lines.take (k + 1) = lines.take k ++ [l] := by
      rw [List.take_add_one, hk]
      rfl
    have hlen : (lines.take k).length = k := List.length_take_of_le (by omega)
    rw [htake, paintLines_append_of_ok [l] hb, hlen, Nat.add_comm 1 k,
      paintLines_cons_of_ok (hscan.trans (scan_of_done hs))]
    rfl
  | again => exact ha.elim

theorem begun_of_reaches {pt : Point} (hpt : h.Reaches lines pt) : h.Begun lines pt := by
  induction hpt with
  | refl => exact ⟨_, _, rfl, rfl⟩
  | tail _ hl ih => exact begun_of_advances ih hl

end Highlighter

end Highlight
