import Highlight.Highlighter.Captures
import Highlight.Highlighter.Choice

/-!
# Scanning a line

A scan goes from match to match. A match that consumes nothing gives the rest of
the line up if it would lead back to where the scan was: each step either moves
on, closes a region that was not opened here, or opens one of a rule that has not
been opened here yet. So a scan ends.
-/

namespace Highlight

/-- The pattern at the end of a region, for an opening with these groups. -/
def Closing.resolve (engine : Engine) (line : Nat) (groups : List (Option String)) :
    Closing Pattern → Except TokenizeError Pattern
  | fixed p => .ok p
  | backReferenced source =>
    let resolved := Literal.resolveBackReferences source groups
    (engine.read resolved).mapError (.invalidClosing line resolved)

inductive Progress where
  | done (s : State) (p : Painting)
  | next (position : Nat) (s : State) (p : Painting)

namespace Highlighter

/-- Opens a region, after its opening has been painted. -/
def enter (h : Highlighter) (line : Nat) (again : Retokenize) (text : Array Char) (start : Nat) (s : State)
    (p : Painting) (m : Match) (id : Nat) (r : Region Nat Pattern) :
    Except TokenizeError (State × Painting) := do
  let groups := m.texts text
  let named := s.scopes ++ Scope.ofTemplate r.name groups
  let p ← p.addMatch again text m r.openingCaptures named
  let closing ← r.closing.resolve h.engine line groups
  return (s.push {
    rule := id
    region := r
    closing := closing
    outer := s.scopes
    named := named
    inner := named ++ Scope.ofTemplate r.contentName groups
    enteredAt := some start }, p)

/-- One step of a scan from `start`: the next match is painted, and what comes
before it. -/
def step (h : Highlighter) (line : Nat) (again : Retokenize) (text : Array Char) (start : Nat)
    (s : State) (p : Painting) : Except TokenizeError Progress :=
  match h.next text start s with
  | none => .ok (.done s (p.paint start text.size s.scopes))
  | some (choice, m) => do
    let p := p.paint start m.span.start s.scopes
    let giveUp (s : State) (p : Painting) : Progress :=
      .done s (p.paint m.span.stop text.size s.scopes)
    match choice with
    | .leave f below =>
      let s := { s with frames := below }
      let p ← p.addMatch again text m f.region.closingCaptures f.named
      if m.span.stop ≤ start ∧ f.enteredAt = some start then return giveUp s p
      else return .next m.span.stop s p
    | .piece name captures =>
      let scopes := s.scopes ++ Scope.ofTemplate name (m.texts text)
      let p ← p.addMatch again text m captures scopes
      if m.span.stop ≤ start then return giveUp s p
      else return .next m.span.stop s p
    | .enter id r =>
      if m.span.stop = start ∧ id ∈ s.openedAt start then return giveUp s p
      else
        let (s, p) ← h.enter line again text start s p m id r
        return .next m.span.stop s p

/-- How many rules have not been opened by searches from here, as far as the
innermost regions show. -/
def freshRules (h : Highlighter) (start : Nat) (s : State) : Nat :=
  unseen h.grammar.rules.size (s.openedAt start)

theorem enter_eq_ok {h : Highlighter} {line : Nat} {again : Retokenize} {text : Array Char} {start : Nat}
    {s : State} {p : Painting} {m : Match} {id : Nat} {r : Region Nat Pattern} {e : State × Painting}
    (he : h.enter line again text start s p m id r = .ok e) :
    ∃ f, f.rule = id ∧ f.enteredAt = some start ∧ e.1 = s.push f := by
  simp only [enter, bind, Except.bind, pure, Except.pure] at he
  split at he
  · cases he
  · split at he <;> cases he
    exact ⟨_, rfl, rfl, rfl⟩

/-- What a step that goes on does to the state: it leaves a region, stays, or
enters one. If it does not move on, the region was not opened here, or is of a
rule not opened here. -/
theorem step_eq_next {h : Highlighter} {line : Nat} {again : Retokenize} {text : Array Char}
    {start stop : Nat} {s s' : State} {p p' : Painting}
    (hs : h.step line again text start s p = .ok (.next stop s' p')) :
    start ≤ stop ∧ stop ≤ text.size ∧
      ((∃ f, s.frames = f :: s'.frames ∧ (stop = start → f.enteredAt ≠ some start)) ∨
      (s' = s ∧ start < stop) ∨
      ∃ f, s' = s.push f ∧ f.enteredAt = some start ∧ f.rule < h.grammar.rules.size ∧
        (stop = start → f.rule ∉ s.openedAt start)) := by
  unfold step at hs
  split at hs
  · cases hs
  · rename_i choice m hn
    obtain ⟨⟨pattern, hc⟩, h₁, h₂, h₃⟩ := next_eq_some hn
    simp only [bind, Except.bind, pure, Except.pure] at hs
    split at hs
    · rename_i f below
      have hf := State.frames_of_leave_mem hc
      split at hs
      · cases hs
      · split at hs <;> cases hs
        exact ⟨by omega, h₃, .inl ⟨f, hf, by grind⟩⟩
    · split at hs
      · cases hs
      · split at hs <;> cases hs
        exact ⟨by omega, h₃, .inr (.inl ⟨rfl, by omega⟩)⟩
    · rename_i id r
      have hid := State.lt_of_enter_mem hc
      split at hs
      · cases hs
      · split at hs
        · cases hs
        · rename_i e he
          cases hs
          obtain ⟨f, rfl, hf, hs'⟩ := enter_eq_ok he
          exact ⟨by omega, h₃, .inr (.inr ⟨f, hs', hf, hid, by grind⟩)⟩

theorem step_decreases {h : Highlighter} {line : Nat} {again : Retokenize} {text : Array Char}
    {start stop : Nat} {s s' : State} {p p' : Painting}
    (hs : h.step line again text start s p = .ok (.next stop s' p')) :
    Prod.Lex (· < ·) (Prod.Lex (· < ·) (· < ·))
      (text.size - stop, h.freshRules stop s', s'.frames.length)
      (text.size - start, h.freshRules start s, s.frames.length) := by
  obtain ⟨h₁, h₂, hs⟩ := step_eq_next hs
  by_cases hlt : start < stop
  · exact .left _ _ (by omega)
  · obtain rfl : stop = start := by omega
    refine .right _ ?_
    rcases hs with ⟨f, hf, hne⟩ | ⟨_, h⟩ | ⟨f, rfl, hat, hr, hne⟩
    · have hfresh : h.freshRules stop s = h.grammar.rules.size := by
        simp [freshRules, State.openedAt, hf, hne, unseen_nil]
      have hlen : s'.frames.length < s.frames.length := by simp [hf]
      rw [hfresh]
      rcases Nat.lt_or_eq_of_le (unseen_le h.grammar.rules.size (s'.openedAt stop)) with hl | he
      · exact .left _ _ hl
      · rw [freshRules, he]
        exact .right _ hlen
    · omega
    · refine .left _ _ ?_
      simp only [freshRules, State.openedAt_push hat]
      exact unseen_cons_lt hr (hne rfl)

/-- Goes through the text from a position on. -/
def scan (h : Highlighter) (line : Nat) (again : Retokenize) (text : Array Char) (start : Nat)
    (s : State) (p : Painting) : Except TokenizeError (State × Painting) :=
  match _h : h.step line again text start s p with
  | .error e => .error e
  | .ok (.done s p) => .ok (s, p)
  | .ok (.next start s p) => scan h line again text start s p
termination_by (text.size - start, h.freshRules start s, s.frames.length)
decreasing_by exact step_decreases ‹_›

/-- Scans with captures tokenized again up to some depth. -/
def scanWithin (h : Highlighter) (line : Nat) : (depth : Nat) → Retokenize
  | 0, _, _, _, _ => .error (.endless line)
  | depth + 1, text, start, s, p =>
    (h.scan line (h.scanWithin line depth) text start s p).map (·.2)

end Highlighter

end Highlight
