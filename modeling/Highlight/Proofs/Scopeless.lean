import Highlight.Proofs.Step

/-!
# Scopes decide nothing

States that differ in their scopes alone find the same matches and go on in the same
way. Scopes are taken off to say so.
-/

namespace Highlight

def Frame.bare (f : Frame) : Frame :=
  { f with outer := [], named := [], inner := [] }

def State.bare (s : State) : State :=
  { s with baseScopes := [], frames := s.frames.map Frame.bare }

def Choice.bare : Choice → Choice
  | leave f below => leave f.bare (below.map Frame.bare)
  | piece name captures => piece name captures
  | enter id r => enter id r

def Progress.bare : Progress → Progress
  | done s _ => done s.bare (.blank 0)
  | next i s _ => next i s.bare (.blank 0)

theorem Progress.of_bare_eq_done {r : Progress} {s : State} {p : Painting} (hr : r.bare = done s p) :
    ∃ s' p', r = done s' p' ∧ s'.bare = s := by
  cases r with
  | done s' p' =>
    injection hr with hs _
    exact ⟨s', p', rfl, hs⟩
  | next i s' p' => cases hr

theorem Progress.of_bare_eq_next {r : Progress} {i : Nat} {s : State} {p : Painting} (hr : r.bare = next i s p) :
    ∃ s' p', r = next i s' p' ∧ s'.bare = s := by
  cases r with
  | done s' p' => cases hr
  | next j s' p' =>
    injection hr with hi hs _
    exact ⟨s', p', by rw [hi], hs⟩

namespace State

theorem frames_bare (s : State) : s.bare.frames = s.frames.map Frame.bare := rfl

theorem rule_bare (s : State) : s.bare.rule = s.rule := by
  unfold rule
  rw [frames_bare]
  cases s.frames with
  | nil => rfl
  | cons f below => rfl

theorem openedAt_bare (s : State) (i : Nat) : s.bare.openedAt i = s.openedAt i := by
  unfold openedAt
  rw [frames_bare, List.takeWhile_map, List.map_map]
  rfl

theorem starts_bare (s : State) (g : Grammar) : s.bare.starts g = s.starts g := by
  unfold starts
  rw [rule_bare]

theorem map_bare_starts (s : State) (g : Grammar) :
    (s.starts g).map (fun c => (c.1.bare, c.2)) = s.starts g := by
  unfold starts
  rw [List.map_filterMap]
  congr 1
  funext id
  cases g.rules[id]? with
  | none => rfl
  | some rule => cases rule <;> rfl

theorem choices_bare (s : State) (g : Grammar) :
    s.bare.choices g = (s.choices g).map fun c => (c.1.bare, c.2) := by
  unfold choices
  rw [frames_bare, starts_bare]
  cases s.frames with
  | nil => exact (map_bare_starts s g).symm
  | cons f below =>
    have hlasting : f.bare.region.lasting = f.region.lasting := rfl
    simp only [List.map_cons, hlasting]
    cases f.region.lasting with
    | untilClosed closingLast =>
      cases closingLast with
      | false =>
        rw [List.map_cons, map_bare_starts]
        rfl
      | true =>
        rw [List.map_append, map_bare_starts]
        rfl
    | whileHolds => exact (map_bare_starts s g).symm

theorem painted?_bare (s : State) (text : Array Char) (start : Nat) (m : Match) (c : Choice) :
    (s.bare.painted? text start m c.bare).map (·.1) = (s.painted? text start m c).map (·.1) := by
  cases c with
  | leave f below => rfl
  | piece name captures => rfl
  | enter id r =>
    rw [Choice.bare, painted?, painted?, openedAt_bare]
    split
    · rfl
    · rfl

end State

theorem firstFrom_map {α β : Type} (f : Nat → Option α) (g : α → β) (n i : Nat) :
    firstFrom (fun i => (f i).map g) n i = (firstFrom f n i).map g := by
  induction n generalizing i with
  | zero => rfl
  | succ n ih =>
    rw [firstFrom, firstFrom]
    cases f i with
    | some a => rfl
    | none => exact ih (i + 1)

namespace Highlighter

variable (h : Highlighter) (line : Nat) (text : Array Char)

theorem choiceAt_bare (start : Nat) (cs : List (Choice × Pattern)) (i : Nat) :
    h.choiceAt text start (cs.map fun c => (c.1.bare, c.2)) i =
      (h.choiceAt text start cs i).map fun cm => (cm.1.bare, cm.2) := by
  unfold choiceAt
  rw [List.findSome?_map, List.map_findSome?]
  congr 1
  funext ⟨c, p⟩
  show (h.engine.matchAt p text start i).map (c.bare, ·) =
    ((h.engine.matchAt p text start i).map (c, ·)).map fun cm => (cm.1.bare, cm.2)
  rw [Option.map_map]
  rfl

theorem next_bare (start : Nat) (s : State) :
    h.next text start s.bare = (h.next text start s).map fun cm => (cm.1.bare, cm.2) := by
  unfold next
  rw [← firstFrom_map, State.choices_bare]
  congr 1
  funext i
  exact choiceAt_bare h text start _ i

theorem settle_bare (start : Nat) (s : State) (m : Match) (p q : Painting) (c : Choice) :
    (h.settle line text start s.bare m p c.bare).map Progress.bare =
      (h.settle line text start s m q c).map Progress.bare := by
  have hbare (l : List Frame) : (l.map Frame.bare).map Frame.bare = l.map Frame.bare := by
    rw [List.map_map]
    rfl
  cases c with
  | leave f below =>
    have hgive : ({ s.bare with frames := below.map Frame.bare } : State).bare = ({ s with frames := below } : State).bare := by
      simp only [State.bare, hbare]
    simp only [Choice.bare, settle, Except.map]
    by_cases hl : m.span.stop ≤ start ∧ f.enteredAt = some start
    · rw [if_pos hl, if_pos (show _ ∧ f.bare.enteredAt = some start from hl)]
      simp only [Progress.bare, hgive]
    · rw [if_neg hl, if_neg (show ¬(_ ∧ f.bare.enteredAt = some start) from hl)]
      simp only [Progress.bare, hgive]
  | piece name captures =>
    have hstate : s.bare.bare = s.bare := by
      simp only [State.bare, hbare]
    simp only [Choice.bare, settle, Except.map]
    split
    · simp only [Progress.bare, hstate]
    · simp only [Progress.bare, hstate]
  | enter id r =>
    simp only [Choice.bare, settle]
    cases r.closing.resolve h.engine line (m.texts text) with
    | error e => rfl
    | ok closing =>
      simp only [Except.map, Progress.bare, State.bare, State.push, List.map_cons, hbare]
      rfl

end Highlighter

end Highlight
