import Highlight.Proofs.Step

/-!
# Line numbers

The number of a line is only told in errors. Painting a line under another number
gives the same, but for the number in its error.
-/

namespace Highlight

namespace TokenizeError

def line : TokenizeError → Nat
  | invalidClosing line _ _ => line
  | endless line => line

def atLine (n : Nat) : TokenizeError → TokenizeError
  | invalidClosing _ pattern error => invalidClosing n pattern error
  | endless _ => endless n

theorem line_atLine (n : Nat) (e : TokenizeError) : (e.atLine n).line = n := by
  cases e <;> rfl

end TokenizeError

def Retokenize.numbered (n : Nat) (again : Retokenize) : Retokenize :=
  fun text start s p => (again text start s p).mapError (.atLine n)

theorem Closing.resolve_numbered (engine : Engine) (n k : Nat) (groups : List (Option String)) (c : Closing Pattern) :
    c.resolve engine n groups = (c.resolve engine k groups).mapError (.atLine n) := by
  cases c with
  | fixed p => rfl
  | backReferenced source =>
    rw [resolve, resolve]
    cases engine.read (Literal.resolveBackReferences source groups) with
    | error e => rfl
    | ok p => rfl

namespace Painting

variable (n : Nat) (again : Retokenize) (text : Array Char)

theorem addSegment_numbered (p : Painting) (s : Segment) :
    p.addSegment (again.numbered n) text s = (p.addSegment again text s).mapError (.atLine n) := by
  unfold addSegment
  split
  · rfl
  · rfl

theorem addSegments_numbered : ∀ (segments : List Segment) (p : Painting),
    segments.foldlM (addSegment (again.numbered n) text) p =
      (segments.foldlM (addSegment again text) p).mapError (.atLine n)
  | [], _ => rfl
  | s :: segments, p => by
    rw [List.foldlM_cons, List.foldlM_cons, Results.mapError_bind, addSegment_numbered]
    congr 1
    funext q
    exact addSegments_numbered segments q

theorem addMatch_numbered (p : Painting) (m : Match) (captures : List (Capture Nat)) (scopes : List String) :
    p.addMatch (again.numbered n) text m captures scopes =
      (p.addMatch again text m captures scopes).mapError (.atLine n) := by
  unfold addMatch
  split
  · rfl
  · split
    · rfl
    · exact addSegments_numbered n again text _ p

end Painting

namespace Highlighter

variable (h : Highlighter) (n k : Nat) (again : Retokenize) (text : Array Char)

theorem settle_numbered (start : Nat) (s : State) (m : Match) (p : Painting) (c : Choice) :
    h.settle n text start s m p c = (h.settle k text start s m p c).mapError (.atLine n) := by
  cases c with
  | leave f below => rfl
  | piece name captures => rfl
  | enter id r =>
    rw [settle, settle, Results.mapError_map, ← Closing.resolve_numbered]

theorem step_numbered (start : Nat) (s : State) (p : Painting) :
    h.step n (again.numbered n) text start s p = (h.step k again text start s p).mapError (.atLine n) := by
  cases hn : h.next text start s with
  | none =>
    rw [step_of_next_eq_none h n _ text p hn, step_of_next_eq_none h k again text p hn]
    rfl
  | some cm =>
    obtain ⟨c, m⟩ := cm
    rw [step_of_next_eq_some h n _ text p hn, step_of_next_eq_some h k again text p hn]
    cases s.painted? text start m c with
    | none => rfl
    | some painted =>
      obtain ⟨captures, scopes⟩ := painted
      simp only [Painting.addMatch_numbered, Results.mapError_bind]
      congr 1
      funext q
      exact settle_numbered h n k text start s m q c

theorem scan_numbered (start : Nat) (s : State) (p : Painting) :
    h.scan n (again.numbered n) text start s p = (h.scan k again text start s p).mapError (.atLine n) := by
  induction start, s, p using scan.induct h k again text with
  | case1 start s p e hs =>
    have hn : h.step n (again.numbered n) text start s p = .error (e.atLine n) := by
      rw [step_numbered h n k, hs]
      rfl
    rw [scan_of_error hs, scan_of_error hn]
    rfl
  | case2 start s p s' p' hs =>
    have hn : h.step n (again.numbered n) text start s p = .ok (.done s' p') := by
      rw [step_numbered h n k, hs]
      rfl
    rw [scan_of_done hs, scan_of_done hn]
    rfl
  | case3 start s p i s' p' hs ih =>
    have hn : h.step n (again.numbered n) text start s p = .ok (.next i s' p') := by
      rw [step_numbered h n k, hs]
      rfl
    rw [scan_of_next hs, scan_of_next hn, ih]

theorem scanWithin_numbered : ∀ depth, h.scanWithin n depth = (h.scanWithin k depth).numbered n
  | 0 => rfl
  | depth + 1 => by
    funext text start s p
    rw [scanWithin, scanWithin_numbered depth, scan_numbered h n k, ← Results.mapError_map]
    rfl

theorem checkConditions_numbered : ∀ (frames : List Frame) (start : Nat) (p : Painting),
    h.checkConditions (again.numbered n) text start p frames =
      (h.checkConditions again text start p frames).mapError (.atLine n)
  | [], _, _ => rfl
  | f :: inner, start, p => by
    rw [checkConditions, checkConditions]
    split
    · rw [checkConditions_numbered inner, Results.mapError_bind]
      rfl
    · split
      · rfl
      · rw [Painting.addMatch_numbered, Results.mapError_bind]
        congr 1
        funext q
        rw [checkConditions_numbered inner, Results.mapError_bind]
        rfl

/-- The number of a line only matters to its error. -/
theorem paintLine_numbered (line : List Char) (s : State) :
    h.paintLine n line s = (h.paintLine k line s).mapError (.atLine n) := by
  unfold paintLine
  simp only
  rw [scanWithin_numbered h n k, checkConditions_numbered, Results.mapError_bind]
  congr 1
  funext e
  exact scan_numbered h n k _ _ _ _ _

variable {h n}

theorem line_of_paintLine_eq_error {line : List Char} {s : State} {e : TokenizeError}
    (he : h.paintLine n line s = .error e) : e.line = n := by
  rw [paintLine_numbered h n n] at he
  obtain ⟨d, _, rfl⟩ := Results.mapError_eq_error.mp he
  exact TokenizeError.line_atLine n d

end Highlighter

end Highlight
