import Highlight.Proofs.Results

/-!
# The parts of a step

A step of a scan looks for the next match, paints it, and settles how the scan
goes on. Only painting may tokenize a part of the text again.
-/

namespace Highlight

/-- The captures and the scopes a match is painted with. A rule that comes again
without moving on paints nothing. -/
def State.painted? (s : State) (text : Array Char) (start : Nat) (m : Match) :
    Choice → Option (List (Capture Nat) × List String)
  | .leave f _ => some (f.region.closingCaptures, f.named)
  | .piece name captures => some (captures, s.scopes ++ Scope.ofTemplate name (m.texts text))
  | .enter id r =>
    if m.span.stop = start ∧ id ∈ s.openedAt start then none
    else some (r.openingCaptures, s.scopes ++ Scope.ofTemplate r.name (m.texts text))

def State.opened (s : State) (text : Array Char) (start : Nat) (m : Match) (id : Nat)
    (r : Region Nat Pattern) (closing : Pattern) : Frame :=
  let named := s.scopes ++ Scope.ofTemplate r.name (m.texts text)
  { rule := id
    region := r
    closing := closing
    outer := s.scopes
    named := named
    inner := named ++ Scope.ofTemplate r.contentName (m.texts text)
    enteredAt := some start }

namespace Highlighter

def settle (h : Highlighter) (line : Nat) (text : Array Char) (start : Nat) (s : State) (m : Match)
    (p : Painting) : Choice → Except TokenizeError Progress
  | .leave f below =>
    let s := { s with frames := below }
    .ok (if m.span.stop ≤ start ∧ f.enteredAt = some start then
      .done s (p.paint m.span.stop text.size s.scopes) else .next m.span.stop s p)
  | .piece _ _ =>
    .ok (if m.span.stop ≤ start then .done s (p.paint m.span.stop text.size s.scopes)
      else .next m.span.stop s p)
  | .enter id r =>
    (r.closing.resolve h.engine line (m.texts text)).map fun closing =>
      .next m.span.stop (s.push (s.opened text start m id r closing)) p

variable (h : Highlighter) (line : Nat) (again : Retokenize) (text : Array Char)

theorem enter_eq (start : Nat) (s : State) (p : Painting) (m : Match) (id : Nat) (r : Region Nat Pattern) :
    h.enter line again text start s p m id r =
      (p.addMatch again text m r.openingCaptures (s.scopes ++ Scope.ofTemplate r.name (m.texts text)) >>=
        fun p => (r.closing.resolve h.engine line (m.texts text)).map fun closing =>
          (s.push (s.opened text start m id r closing), p)) := by
  unfold enter
  simp only [bind, Except.bind, pure, Except.pure]
  split
  · rfl
  · cases r.closing.resolve h.engine line (m.texts text) with
    | error e => rfl
    | ok closing => rfl

theorem step_of_next_eq_none {start : Nat} {s : State} (p : Painting) (hn : h.next text start s = none) :
    h.step line again text start s p = .ok (.done s (p.paint start text.size s.scopes)) := by
  unfold step
  rw [hn]

theorem step_of_next_eq_some {start : Nat} {s : State} {c : Choice} {m : Match} (p : Painting)
    (hn : h.next text start s = some (c, m)) :
    h.step line again text start s p =
      match s.painted? text start m c with
      | none => .ok (.done s ((p.paint start m.span.start s.scopes).paint m.span.stop text.size s.scopes))
      | some (captures, scopes) =>
        (p.paint start m.span.start s.scopes).addMatch again text m captures scopes >>=
          fun p => h.settle line text start s m p c := by
  unfold step
  rw [hn]
  cases c with
  | leave f below =>
    simp only [State.painted?, settle, bind, Except.bind, pure, Except.pure]
    split
    · rfl
    · split <;> rfl
  | piece name captures =>
    simp only [State.painted?, settle, bind, Except.bind, pure, Except.pure]
    split
    · rfl
    · split <;> rfl
  | enter id r =>
    by_cases hr : m.span.stop = start ∧ id ∈ s.openedAt start
    · simp only [State.painted?, if_pos hr]
      rfl
    · simp only [State.painted?, if_neg hr, settle, enter_eq, bind, Except.bind, pure, Except.pure]
      cases Painting.addMatch again text m r.openingCaptures
        (s.scopes ++ Scope.ofTemplate r.name (m.texts text)) (p.paint start m.span.start s.scopes) with
      | error e => rfl
      | ok p =>
        cases r.closing.resolve h.engine line (m.texts text) with
        | error e => rfl
        | ok closing => rfl

/-! ## Going on -/

variable {h line again text}

theorem scan_of_error {start : Nat} {s : State} {p : Painting} {e : TokenizeError}
    (hs : h.step line again text start s p = .error e) : h.scan line again text start s p = .error e := by
  rw [scan, hs]

theorem scan_of_done {start : Nat} {s s' : State} {p p' : Painting}
    (hs : h.step line again text start s p = .ok (.done s' p')) :
    h.scan line again text start s p = .ok (s', p') := by
  rw [scan, hs]

theorem scan_of_next {start i : Nat} {s s' : State} {p p' : Painting}
    (hs : h.step line again text start s p = .ok (.next i s' p')) :
    h.scan line again text start s p = h.scan line again text i s' p' := by
  rw [scan, hs]

end Highlighter

end Highlight
