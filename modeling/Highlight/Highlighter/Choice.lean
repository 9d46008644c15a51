import Highlight.Highlighter.State

/-!
# What comes next

At a position of a line the innermost region may be left, or a rule may start
that applies inside it. The match that starts first is chosen, and the first one
in the order of preference among those that start there.
-/

namespace Highlight

structure Highlighter where
  grammar : Grammar
  engine : Engine

inductive Choice where
  /-- The innermost region ends, and those below it stay. -/
  | leave (f : Frame) (below : List Frame)
  | piece (name : Option String) (captures : List (Capture Nat))
  | enter (rule : Nat) (r : Region Nat Pattern)
  deriving Repr

/-- The start of a rule, with its pattern. A container does not start. -/
def Choice.ofRule? (id : Nat) : Rule Nat Pattern → Option (Choice × Pattern)
  | .container _ => none
  | .piece name p captures => some (.piece name captures, p)
  | .region r => some (.enter id r, r.opening)

namespace State

/-- The rules that may start. -/
def starts (s : State) (g : Grammar) : List (Choice × Pattern) :=
  (g.candidatesIn s.rule).filterMap fun id => g.rules[id]?.bind (Choice.ofRule? id)

/-- All choices in the order of preference. -/
def choices (s : State) (g : Grammar) : List (Choice × Pattern) :=
  match s.frames with
  | [] => s.starts g
  | f :: below =>
    match f.region.lasting with
    | .untilClosed false => (.leave f below, f.closing) :: s.starts g
    | .untilClosed true => s.starts g ++ [(.leave f below, f.closing)]
    | .whileHolds => s.starts g

theorem mem_choices {s : State} {g : Grammar} {c : Choice × Pattern} (h : c ∈ s.choices g) :
    (∃ f below, s.frames = f :: below ∧ c.1 = .leave f below) ∨
      ∃ id rule, g.rules[id]? = some rule ∧ Choice.ofRule? id rule = some c := by
  have of_starts (h : c ∈ s.starts g) :
      ∃ id rule, g.rules[id]? = some rule ∧ Choice.ofRule? id rule = some c := by
    obtain ⟨id, _, h⟩ := List.mem_filterMap.1 h
    obtain ⟨rule, hr, h⟩ := Option.bind_eq_some_iff.1 h
    exact ⟨id, rule, hr, h⟩
  unfold choices at h
  grind

theorem frames_of_leave_mem {s : State} {g : Grammar} {f : Frame} {below : List Frame} {p : Pattern}
    (h : (.leave f below, p) ∈ s.choices g) : s.frames = f :: below := by
  rcases mem_choices h with ⟨f', below', hs, h⟩ | ⟨id, rule, _, h⟩
  · grind
  · cases rule <;> simp [Choice.ofRule?] at h

theorem lt_of_enter_mem {s : State} {g : Grammar} {id : Nat} {r : Region Nat Pattern} {p : Pattern}
    (h : (.enter id r, p) ∈ s.choices g) : id < g.rules.size := by
  rcases mem_choices h with ⟨_, _, _, h⟩ | ⟨i, rule, hr, h⟩
  · cases h
  · have hi := (Array.getElem?_eq_some_iff.1 hr).1
    cases rule <;> simp [Choice.ofRule?] at h
    omega

end State

namespace Highlighter

/-- The first choice that matches at `i`, in a search that began at `start`. -/
def choiceAt (h : Highlighter) (text : Array Char) (start : Nat) (cs : List (Choice × Pattern))
    (i : Nat) : Option (Choice × Match) :=
  cs.findSome? fun (c, p) => (h.engine.matchAt p text start i).map (c, ·)

/-- What comes next from a position on, with its match. -/
def next (h : Highlighter) (text : Array Char) (start : Nat) (s : State) : Option (Choice × Match) :=
  firstFrom (h.choiceAt text start (s.choices h.grammar)) (text.size + 1 - start) start

theorem choiceAt_eq_some {h : Highlighter} {text : Array Char} {start i : Nat}
    {cs : List (Choice × Pattern)} {c : Choice} {m : Match}
    (hc : h.choiceAt text start cs i = some (c, m)) :
    ∃ p, (c, p) ∈ cs ∧ h.engine.matchAt p text start i = some m := by
  obtain ⟨⟨c', p⟩, hmem, hm⟩ := List.exists_of_findSome?_eq_some hc
  obtain ⟨m', hm, heq⟩ := Option.map_eq_some_iff.1 hm
  cases heq
  exact ⟨p, hmem, hm⟩

theorem next_eq_some {h : Highlighter} {text : Array Char} {start : Nat} {s : State} {c : Choice}
    {m : Match} (hn : h.next text start s = some (c, m)) :
    (∃ p, (c, p) ∈ s.choices h.grammar) ∧
      start ≤ m.span.start ∧ m.span.start ≤ m.span.stop ∧ m.span.stop ≤ text.size := by
  obtain ⟨j, h₁, h₂, h₃, _⟩ := firstFrom_eq_some hn
  obtain ⟨p, hmem, hm⟩ := choiceAt_eq_some h₃
  obtain ⟨rfl, h₅, h₆⟩ := h.engine.bounds (by omega) hm
  exact ⟨⟨p, hmem⟩, h₁, h₅, h₆⟩

end Highlighter

end Highlight
