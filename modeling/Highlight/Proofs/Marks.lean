import Highlight.Proofs.Step
import Mathlib.Data.List.Forall2

/-!
# One list of scopes with marks

The scopes of all open regions can be kept in one list. Each region then marks how long the
list was before it, and before its content; a region is left by cutting the list at its mark.
In this form nothing tells that the list reaches as far as a mark, that there is a region to
leave, or that a rule which is open has a pattern that closes it, so for each of these there is
a way out. Where a state is lawful, both forms of it take the same steps, and no way out is taken.
-/

namespace Highlight

structure Mark where
  rule : Nat
  /-- How many scopes there were before the name of the region. -/
  base : Nat
  /-- How many there were with it. -/
  named : Nat
  /-- The closing pattern, where groups of the opening were put in. -/
  resolved : Option Pattern
  enteredAt : Option Nat

/-- A mark for each open region, innermost first, and one for the rule outside of them. -/
structure Marked where
  marks : List Mark
  scopes : List String

inductive Pick where
  | closing
  | rule (id : Nat)

inductive MarkedProgress where
  | done (s : Marked) (p : Painting)
  | next (position : Nat) (s : Marked) (p : Painting)

namespace Mark

variable (g : Grammar) (m : Mark)

def region? : Option (Region Nat Pattern) :=
  match g.rules[m.rule]? with
  | some (.region r) => some r
  | _ => none

def closing? : Option Pattern :=
  (m.region? g).bind fun r => m.resolved.or r.closing.fixed?

def starts : List (Pick × Pattern) :=
  (g.candidatesIn m.rule).filterMap fun id => (g.rules[id]?.bind Rule.opening?).map (.rule id, ·)

def choices : List (Pick × Pattern) :=
  let closing := (m.closing? g).toList.map (Pick.closing, ·)
  match m.region? g with
  | none => m.starts g
  | some r =>
    match r.lasting with
    | .untilClosed false => closing ++ m.starts g
    | .untilClosed true => m.starts g ++ closing
    | .whileHolds => m.starts g

end Mark

namespace Marked

def start (rule : Nat) (scopes : List String) : Marked :=
  ⟨[⟨rule, scopes.length, scopes.length, none, none⟩], scopes⟩

def next (h : Highlighter) (text : Array Char) (start : Nat) (s : Marked) : Option (Pick × Match) :=
  match s.marks with
  | [] => none
  | mark :: _ => firstFrom (fun i => (mark.choices h.grammar).findSome? fun (c, p) =>
      (h.engine.matchAt p text start i).map (c, ·)) (text.size + 1 - start) start

def leave (h : Highlighter) (again : Retokenize) (text : Array Char) (start : Nat) (s : Marked) (m : Match)
    (p : Painting) : Except TokenizeError MarkedProgress :=
  match s.marks with
  | [] => .ok (.done s (p.paint m.span.start text.size s.scopes))
  | mark :: below => do
    let named := s.scopes.take mark.named
    let p ← match mark.region? h.grammar with
      | some r => p.addMatch again text m r.closingCaptures named
      | none => .ok p
    let s : Marked := ⟨below, named.take mark.base⟩
    if m.span.stop ≤ start ∧ mark.enteredAt = some start then return .done s (p.paint m.span.stop text.size s.scopes)
    else return .next m.span.stop s p

def enter (h : Highlighter) (line : Nat) (again : Retokenize) (text : Array Char) (start : Nat) (s : Marked)
    (m : Match) (p : Painting) (id : Nat) (r : Region Nat Pattern) : Except TokenizeError MarkedProgress :=
  if m.span.stop = start ∧ id ∈ (s.marks.takeWhile fun f => f.enteredAt = some start).map (·.rule) then
    .ok (.done s (p.paint m.span.start text.size s.scopes))
  else do
    let groups := m.texts text
    let named := s.scopes ++ Scope.ofTemplate r.name groups
    let p ← p.addMatch again text m r.openingCaptures named
    let resolved ← match r.closing with
      | .fixed _ => .ok none
      | .backReferenced source => (Closing.resolve h.engine line groups (.backReferenced source)).map some
    return .next m.span.stop ⟨⟨id, s.scopes.length, named.length, resolved, some start⟩ :: s.marks,
      named ++ Scope.ofTemplate r.contentName groups⟩ p

def step (h : Highlighter) (line : Nat) (again : Retokenize) (text : Array Char) (start : Nat) (s : Marked) (p : Painting) :
    Except TokenizeError MarkedProgress :=
  match s.next h text start with
  | none => .ok (.done s (p.paint start text.size s.scopes))
  | some (pick, m) =>
    let p := p.paint start m.span.start s.scopes
    match pick with
    | .closing => s.leave h again text start m p
    | .rule id =>
      match h.grammar.rules[id]? with
      | some (.piece name _ captures) => do
        let p ← p.addMatch again text m captures (s.scopes ++ Scope.ofTemplate name (m.texts text))
        if m.span.stop ≤ start then return .done s (p.paint m.span.stop text.size s.scopes)
        else return .next m.span.stop s p
      | some (.region r) => s.enter h line again text start m p id r
      | _ => .ok (.done s (p.paint m.span.start text.size s.scopes))

/-- Checks conditions, outermost first, where some marks have been passed. -/
def checkFrom (h : Highlighter) (again : Retokenize) (text : Array Char) (s : Marked) :
    (start : Nat) → Painting → (passed rest : List Mark) → Except TokenizeError (Marked × Nat × Painting)
  | start, p, _, [] => .ok (s, start, p)
  | start, p, passed, mark :: rest =>
    match mark.region? h.grammar with
    | none => checkFrom h again text s start p (passed ++ [mark]) rest
    | some r =>
      match r.lasting with
      | .untilClosed _ => checkFrom h again text s start p (passed ++ [mark]) rest
      | .whileHolds =>
        match (mark.closing? h.grammar).bind fun pattern => h.engine.matchAt pattern text start start with
        | none => .ok (⟨passed.reverse, s.scopes.take mark.base⟩, start, p)
        | some m => do
          let p ← p.addMatch again text m r.closingCaptures (s.scopes.take (min mark.named s.scopes.length))
          checkFrom h again text s m.span.stop p (passed ++ [mark]) rest

def check (h : Highlighter) (again : Retokenize) (text : Array Char) (s : Marked) (p : Painting) :
    Except TokenizeError (Marked × Nat × Painting) :=
  s.checkFrom h again text 0 p [] s.marks.reverse

end Marked

/-! ## Lawful states -/

def Frame.scopesOver (base : List String) : List Frame → List String
  | [] => base
  | f :: _ => f.inner

inductive Frame.Stacked (base : List String) : List Frame → Prop
  | nil : Stacked base []
  | cons {f : Frame} {below : List Frame} : f.outer = scopesOver base below → f.outer <+: f.named → f.named <+: f.inner →
    Stacked base below → Stacked base (f :: below)

theorem State.scopes_eq (s : State) : s.scopes = Frame.scopesOver s.baseScopes s.frames := by
  unfold State.scopes
  cases s.frames with
  | nil => rfl
  | cons f below => rfl

structure Frame.Lawful (g : Grammar) (f : Frame) : Prop where
  region : g.rules[f.rule]? = some (.region f.region)
  closing : ∀ p, f.region.closing = .fixed p → f.closing = p

structure State.Lawful (g : Grammar) (s : State) : Prop where
  base : ∃ ps, g.rules[s.base]? = some (.container ps)
  frames : ∀ f ∈ s.frames, f.Lawful g
  stacked : Frame.Stacked s.baseScopes s.frames

theorem Frame.Stacked.of_cons {base : List String} {f : Frame} {below : List Frame} (h : Stacked base (f :: below)) :
    f.outer = scopesOver base below ∧ f.outer <+: f.named ∧ f.named <+: f.inner ∧ Stacked base below := by
  cases h with
  | cons ho hn hi hb => exact ⟨ho, hn, hi, hb⟩

theorem Frame.Stacked.of_append {base : List String} {below : List Frame} : ∀ {above : List Frame},
    Stacked base (above ++ below) → Stacked base below ∧ scopesOver base below <+: scopesOver base (above ++ below)
  | [], h => ⟨h, List.prefix_rfl⟩
  | f :: above, h => by
    obtain ⟨ho, hn, hi, hb⟩ := h.of_cons
    obtain ⟨hbelow, hprefix⟩ := hb.of_append
    exact ⟨hbelow, hprefix.trans (ho ▸ hn.trans hi)⟩

/-! ## The two forms of a state -/

def Frame.mark (f : Frame) : Mark where
  rule := f.rule
  base := f.outer.length
  named := f.named.length
  resolved := match f.region.closing with
    | .fixed _ => none
    | .backReferenced _ => some f.closing
  enteredAt := f.enteredAt

def State.baseMark (s : State) : Mark :=
  ⟨s.base, s.baseScopes.length, s.baseScopes.length, none, none⟩

def State.marked (s : State) : Marked :=
  ⟨s.frames.map Frame.mark ++ [s.baseMark], s.scopes⟩

def Progress.marked : Progress → MarkedProgress
  | done s p => .done s.marked p
  | next i s p => .next i s.marked p

/-- A pick in one form is a choice in the other. -/
inductive State.Means (g : Grammar) (s : State) : Pick → Choice → Prop
  | leave {f : Frame} {below : List Frame} : s.frames = f :: below → Means g s .closing (.leave f below)
  | piece {id : Nat} {name : Option String} {pattern : Pattern} {captures : List (Capture Nat)} :
    g.rules[id]? = some (.piece name pattern captures) → Means g s (.rule id) (.piece name captures)
  | enter {id : Nat} {r : Region Nat Pattern} : g.rules[id]? = some (.region r) → Means g s (.rule id) (.enter id r)

section

variable {α β : Type} {R : α → β → Prop}

theorem rel_findSome? {γ δ : Type} {S : γ → δ → Prop} {f : γ → Option α} {f' : δ → Option β}
    (hf : ∀ c d, S c d → Option.Rel R (f c) (f' d)) {l : List γ} {l' : List δ} (hl : List.Forall₂ S l l') :
    Option.Rel R (l.findSome? f) (l'.findSome? f') := by
  induction hl with
  | nil => exact .none
  | @cons c d l l' hcd _ ih =>
    have hrel := hf c d hcd
    rw [List.findSome?_cons, List.findSome?_cons]
    cases hc : f c with
    | none =>
      rw [hc] at hrel
      cases hd : f' d with
      | none => exact ih
      | some b =>
        rw [hd] at hrel
        cases hrel
    | some a =>
      rw [hc] at hrel
      cases hd : f' d with
      | none =>
        rw [hd] at hrel
        cases hrel
      | some b =>
        rw [hd] at hrel
        exact hrel

theorem rel_firstFrom {f : Nat → Option α} {f' : Nat → Option β} (hf : ∀ i, Option.Rel R (f i) (f' i)) :
    ∀ n i, Option.Rel R (firstFrom f n i) (firstFrom f' n i)
  | 0, _ => .none
  | n + 1, i => by
    have hrel := hf i
    rw [firstFrom, firstFrom]
    cases hc : f i with
    | none =>
      rw [hc] at hrel
      cases hd : f' i with
      | none => exact rel_firstFrom hf n (i + 1)
      | some b =>
        rw [hd] at hrel
        cases hrel
    | some a =>
      rw [hc] at hrel
      cases hd : f' i with
      | none =>
        rw [hd] at hrel
        cases hrel
      | some b =>
        rw [hd] at hrel
        exact hrel

end

namespace State.Lawful

variable {h : Highlighter} {g : Grammar} {s : State}

theorem region?_mark {f : Frame} (hf : f.Lawful g) : f.mark.region? g = some f.region := by
  unfold Mark.region?
  show (match g.rules[f.rule]? with
    | some (.region r) => some r
    | _ => none) = _
  rw [hf.region]

theorem closing?_mark {f : Frame} (hf : f.Lawful g) : f.mark.closing? g = some f.closing := by
  unfold Mark.closing?
  rw [region?_mark hf, Option.bind_some]
  unfold Frame.mark
  cases hc : f.region.closing with
  | fixed p =>
    rw [hf.closing p hc]
    rfl
  | backReferenced source => rfl

theorem region?_baseMark (hs : s.Lawful g) : s.baseMark.region? g = none := by
  obtain ⟨ps, hps⟩ := hs.base
  unfold Mark.region?
  show (match g.rules[s.base]? with
    | some (.region r) => some r
    | _ => none) = _
  rw [hps]

theorem forall₂_starts (g : Grammar) (s : State) (mark : Mark) (hrule : mark.rule = s.rule) :
    List.Forall₂ (fun a b => s.Means g a.1 b.1 ∧ a.2 = b.2) (mark.starts g) (s.starts g) := by
  unfold Mark.starts State.starts
  rw [hrule]
  induction g.candidatesIn s.rule with
  | nil => exact .nil
  | cons id ids ih =>
    rw [List.filterMap_cons, List.filterMap_cons]
    cases hr : g.rules[id]? with
    | none => exact ih
    | some rule =>
      cases rule with
      | container ps => exact ih
      | piece name pattern captures => exact .cons ⟨.piece hr, rfl⟩ ih
      | region r => exact .cons ⟨.enter hr, rfl⟩ ih

theorem marked_next (hs : s.Lawful h.grammar) (text : Array Char) (start : Nat) :
    Option.Rel (fun a b => s.Means h.grammar a.1 b.1 ∧ a.2 = b.2) (s.marked.next h text start) (h.next text start s) := by
  have hchoices (mark : Mark) (below : List Mark) (hm : s.marked.marks = mark :: below) :
      List.Forall₂ (fun a b => s.Means h.grammar a.1 b.1 ∧ a.2 = b.2) (mark.choices h.grammar) (s.choices h.grammar) := by
    unfold Mark.choices State.choices
    cases hf : s.frames with
    | nil =>
      have hmark : mark = s.baseMark := by
        simp only [State.marked, hf, List.map_nil, List.nil_append, List.cons.injEq] at hm
        exact hm.1.symm
      subst hmark
      rw [hs.region?_baseMark]
      exact forall₂_starts h.grammar s s.baseMark (by simp [State.rule, hf, State.baseMark])
    | cons f rest =>
      have hmark : mark = f.mark := by
        simp only [State.marked, hf, List.map_cons, List.cons_append, List.cons.injEq] at hm
        exact hm.1.symm
      subst hmark
      have hlawful := hs.frames f (by simp [hf])
      have hstarts := forall₂_starts h.grammar s f.mark (by simp [State.rule, hf, Frame.mark])
      have hleave : s.Means h.grammar .closing (.leave f rest) := .leave hf
      simp only [region?_mark hlawful, closing?_mark hlawful]
      cases f.region.lasting with
      | untilClosed closingLast =>
        cases closingLast with
        | false => exact .cons ⟨hleave, rfl⟩ hstarts
        | true => exact List.rel_append hstarts (.cons ⟨hleave, rfl⟩ .nil)
      | whileHolds => exact hstarts
  unfold Marked.next Highlighter.next
  obtain ⟨mark, below, hm⟩ : ∃ mark below, s.marked.marks = mark :: below := by
    unfold State.marked
    cases s.frames with
    | nil => exact ⟨_, _, rfl⟩
    | cons f rest => exact ⟨_, _, rfl⟩
  rw [hm]
  refine rel_firstFrom (fun i => rel_findSome? ?_ (hchoices mark below hm)) _ _
  rintro ⟨pick, p⟩ ⟨c, p'⟩ ⟨hmeans, rfl⟩
  simp only
  cases h.engine.matchAt p text start i with
  | none => exact .none
  | some m => exact .some ⟨hmeans, rfl⟩

/-- The scopes in force start with those of each open region, and these with the scopes around it. -/
theorem prefixes (hs : s.Lawful g) (above : List Frame) {below : List Frame} {f : Frame} (hf : s.frames = above ++ f :: below) :
    f.outer = ({ s with frames := below } : State).scopes ∧ f.outer <+: f.named ∧ f.named <+: s.scopes := by
  obtain ⟨hstacked, hprefix⟩ := (hf ▸ hs.stacked).of_append
  obtain ⟨ho, hn, hi, _⟩ := hstacked.of_cons
  refine ⟨ho.trans (scopes_eq { s with frames := below }).symm, hn, ?_⟩
  rw [scopes_eq s, hf]
  exact hi.trans hprefix

theorem marked_leave (hs : s.Lawful h.grammar) (again : Retokenize) (text : Array Char) (start line : Nat) (m : Match)
    (p : Painting) {f : Frame} {below : List Frame} (hf : s.frames = f :: below) :
    s.marked.leave h again text start m p =
      (p.addMatch again text m f.region.closingCaptures f.named >>=
        fun p => h.settle line text start s m p (.leave f below)).map Progress.marked := by
  obtain ⟨hbelow, houter, hnamed⟩ := hs.prefixes [] hf
  have hmarks : s.marked = ⟨f.mark :: (below.map Frame.mark ++ [s.baseMark]), s.scopes⟩ := by
    unfold State.marked
    rw [hf]
    rfl
  have hbase : f.named.take f.mark.base = ({ s with frames := below } : State).scopes :=
    (List.prefix_iff_eq_take.mp houter).symm.trans hbelow
  have htake : s.scopes.take f.mark.named = f.named := (List.prefix_iff_eq_take.mp hnamed).symm
  unfold Marked.leave
  rw [hmarks]
  simp only [region?_mark (hs.frames f (by simp [hf])), htake, hbase]
  cases p.addMatch again text m f.region.closingCaptures f.named with
  | error e => rfl
  | ok q =>
    show (if m.span.stop ≤ start ∧ f.enteredAt = some start then _ else _) = _
    simp only [bind, Except.bind, Highlighter.settle, Except.map]
    split
    · rfl
    · rfl

theorem takeWhile_marked (s : State) (start : Nat) :
    (s.marked.marks.takeWhile fun f => f.enteredAt = some start).map (·.rule) = s.openedAt start := by
  have hall : ∀ frames : List Frame, ((frames.map Frame.mark ++ [s.baseMark]).takeWhile
      fun f => f.enteredAt = some start).map (·.rule) = (frames.takeWhile fun f => f.enteredAt = some start).map (·.rule) := by
    intro frames
    induction frames with
    | nil => rfl
    | cons f frames ih =>
      rw [List.map_cons, List.cons_append, List.takeWhile_cons, List.takeWhile_cons]
      by_cases hat : f.enteredAt = some start
      · have hat' : f.mark.enteredAt = some start := hat
        simp only [hat, hat', decide_true, if_true, List.map_cons, ih]
        rfl
      · have hat' : ¬f.mark.enteredAt = some start := hat
        simp [hat, hat']
  exact hall s.frames

theorem marked_enter (again : Retokenize) (text : Array Char) (start line : Nat) {m : Match} (p : Painting) (id : Nat)
    (r : Region Nat Pattern) (hle : start ≤ m.span.start ∧ m.span.start ≤ m.span.stop) :
    s.marked.enter h line again text start m p id r =
      (match s.painted? text start m (.enter id r) with
        | none => Except.ok (Progress.done s (p.paint m.span.stop text.size s.scopes))
        | some (captures, scopes) => p.addMatch again text m captures scopes >>=
            fun p => h.settle line text start s m p (.enter id r)).map Progress.marked := by
  unfold Marked.enter State.painted?
  rw [takeWhile_marked]
  by_cases hagain : m.span.stop = start ∧ id ∈ s.openedAt start
  · have hempty : m.span.start = m.span.stop := by omega
    simp only [if_pos hagain, hempty]
    rfl
  · simp only [if_neg hagain]
    show (p.addMatch again text m r.openingCaptures (s.scopes ++ Scope.ofTemplate r.name (m.texts text)) >>= _) =
      (p.addMatch again text m r.openingCaptures (s.scopes ++ Scope.ofTemplate r.name (m.texts text)) >>= _).map _
    cases p.addMatch again text m r.openingCaptures (s.scopes ++ Scope.ofTemplate r.name (m.texts text)) with
    | error e => rfl
    | ok q =>
      simp only [bind, Except.bind, Highlighter.settle]
      cases hc : r.closing with
      | fixed closing =>
        simp only [Closing.resolve, Except.map, Progress.marked, pure, Except.pure]
        unfold State.marked State.push State.opened
        simp [Frame.mark, hc, State.scopes, State.baseMark]
      | backReferenced source =>
        simp only
        cases Closing.resolve h.engine line (m.texts text) (.backReferenced source) with
        | error e => rfl
        | ok closing =>
          simp only [Except.map, Progress.marked, pure, Except.pure]
          unfold State.marked State.push State.opened
          simp [Frame.mark, hc, State.scopes, State.baseMark]

/-- Both forms take the same steps. -/
theorem marked_step (hs : s.Lawful h.grammar) (line : Nat) (again : Retokenize) (text : Array Char) (start : Nat)
    (p : Painting) :
    s.marked.step h line again text start p = (h.step line again text start s p).map Progress.marked := by
  have hnext := hs.marked_next text start
  unfold Marked.step
  cases hm : s.marked.next h text start with
  | none =>
    rw [hm] at hnext
    cases hn : h.next text start s with
    | none =>
      rw [Highlighter.step_of_next_eq_none h line again text p hn]
      rfl
    | some cm =>
      rw [hn] at hnext
      cases hnext
  | some found =>
    obtain ⟨pick, m⟩ := found
    rw [hm] at hnext
    cases hn : h.next text start s with
    | none =>
      rw [hn] at hnext
      cases hnext
    | some cm =>
      obtain ⟨c, m'⟩ := cm
      rw [hn] at hnext
      obtain ⟨hmeans, rfl⟩ : s.Means h.grammar pick c ∧ m = m' := by
        cases hnext with
        | some hrel => exact hrel
      obtain ⟨_, h1, h2, _⟩ := Highlighter.next_eq_some hn
      rw [Highlighter.step_of_next_eq_some h line again text p hn]
      cases hmeans with
      | leave hf => exact hs.marked_leave again text start line m _ hf
      | @piece id name pattern captures hr =>
        have hscopes : s.marked.scopes = s.scopes := rfl
        simp only [hr, hscopes]
        show (Painting.addMatch again text m captures (s.scopes ++ Scope.ofTemplate name (m.texts text)) _ >>= _) =
          (Painting.addMatch again text m captures (s.scopes ++ Scope.ofTemplate name (m.texts text)) _ >>= _).map _
        cases Painting.addMatch again text m captures (s.scopes ++ Scope.ofTemplate name (m.texts text))
            (p.paint start m.span.start s.scopes) with
        | error e => rfl
        | ok q =>
          simp only [bind, Except.bind, Highlighter.settle, Except.map]
          split
          · rfl
          · rfl
      | @enter id r hr =>
        simp only [hr]
        exact marked_enter again text start line _ id r ⟨h1, h2⟩

theorem marked_checkFrom (hs : s.Lawful h.grammar) (again : Retokenize) (text : Array Char) :
    ∀ (rest passed : List Frame) (start : Nat) (p : Painting), s.frames = (passed ++ rest).reverse →
      s.marked.checkFrom h again text start p (s.baseMark :: passed.map Frame.mark) (rest.map Frame.mark) =
        (h.checkConditions again text start p rest).map fun e =>
          (({ s with frames := (passed ++ e.1).reverse } : State).marked, e.2.1, e.2.2)
  | [], passed, start, p, hf => by
    rw [List.map_nil, Marked.checkFrom, Highlighter.checkConditions]
    show _ = Except.ok (({ s with frames := (passed ++ []).reverse } : State).marked, start, p)
    rw [← hf]
  | f :: rest, passed, start, p, hf => by
    have hsplit : s.frames = rest.reverse ++ f :: passed.reverse := by simp [hf]
    have hf' : s.frames = ((passed ++ [f]) ++ rest).reverse := by simp [hf]
    have hlawful := hs.frames f (by simp [hsplit])
    obtain ⟨hbelow, houter, hnamed⟩ := hs.prefixes _ hsplit
    have hpassed : s.baseMark :: passed.map Frame.mark ++ [f.mark] = s.baseMark :: (passed ++ [f]).map Frame.mark := by
      simp
    have hmap (x : Except TokenizeError (List Frame × Nat × Painting)) :
        (x.map fun e => (({ s with frames := ((passed ++ [f]) ++ e.1).reverse } : State).marked, e.2.1, e.2.2)) =
          (x >>= fun e => Except.ok (f :: e.1, e.2.1, e.2.2)).map fun e =>
            (({ s with frames := (passed ++ e.1).reverse } : State).marked, e.2.1, e.2.2) := by
      cases x with
      | error e => rfl
      | ok e => simp [bind, Except.bind, Except.map]
    rw [List.map_cons, Marked.checkFrom, Highlighter.checkConditions]
    simp only [region?_mark hlawful, closing?_mark hlawful, Option.bind_some, hpassed]
    cases f.region.lasting with
    | untilClosed closingLast =>
      simp only
      rw [marked_checkFrom hs again text rest (passed ++ [f]) start p hf', hmap]
      rfl
    | whileHolds =>
      simp only
      cases h.engine.matchAt f.closing text start start with
      | none =>
        have hcut : s.scopes.take f.mark.base = ({ s with frames := passed.reverse } : State).scopes := by
          rw [← hbelow]
          exact (List.prefix_iff_eq_take.mp (houter.trans hnamed)).symm
        show Except.ok _ = Except.ok (({ s with frames := (passed ++ []).reverse } : State).marked, start, p)
        unfold State.marked
        simpa [State.baseMark] using hcut
      | some m =>
        have hname : s.scopes.take (min f.mark.named s.scopes.length) = f.named := by
          show s.scopes.take (min f.named.length s.scopes.length) = f.named
          rw [Nat.min_eq_left hnamed.length_le]
          exact (List.prefix_iff_eq_take.mp hnamed).symm
        have hscopes : s.marked.scopes = s.scopes := rfl
        simp only [hscopes, hname]
        cases p.addMatch again text m f.region.closingCaptures f.named with
        | error e => rfl
        | ok q => exact (marked_checkFrom hs again text rest (passed ++ [f]) m.span.stop q hf').trans (hmap _)

/-- Both forms check conditions in the same way. -/
theorem marked_check (hs : s.Lawful h.grammar) (again : Retokenize) (text : Array Char) (p : Painting) :
    s.marked.check h again text p = (h.checkConditions again text 0 p s.frames.reverse).map fun e =>
      (({ s with frames := e.1.reverse } : State).marked, e.2.1, e.2.2) := by
  have hmarks : s.marked.marks.reverse = s.baseMark :: s.frames.reverse.map Frame.mark := by
    simp [State.marked]
  have hcheck := hs.marked_checkFrom again text s.frames.reverse [] 0 p (by simp)
  unfold Marked.check
  rw [hmarks, Marked.checkFrom, hs.region?_baseMark]
  exact hcheck

end State.Lawful

end Highlight
