import Highlight.Proofs.Delimiters

/-!
# The preferred match

What comes next is found position by position: at the first position where a pattern of the list
matches, the first pattern that does. It can be found pattern by pattern as well. The leftmost
match of each pattern is looked for in turn, and the best so far gives way only to one that starts
further left. No match starts before the search does, so that the rest of the list need not be
tried once a match starts there.
-/

namespace Highlight

namespace Preference

variable {α : Type} (search : Pattern → Option Match) (start : Nat)

def consider (best : Option (α × Match)) (x : α × Pattern) : Option (α × Match) :=
  match search x.2 with
  | none => best
  | some m =>
    match best with
    | none => some (x.1, m)
    | some (a, found) => if found.span.start ≤ m.span.start then some (a, found) else some (x.1, m)

def considerAll (listed : List (α × Pattern)) : Option (α × Match) :=
  listed.foldl (consider search) none

def considerUntil (best : Option (α × Match)) : List (α × Pattern) → Option (α × Match)
  | [] => best
  | x :: rest =>
    if best.any fun b => b.2.span.start = start then best
    else considerUntil (consider search best x) rest

/-- Looks for the candidates, and for one pattern that may come before them or after them. -/
def seek (before : Option (α × Pattern)) (candidates : List (α × Pattern)) (after : Option (α × Pattern)) :
    Option (α × Match) :=
  let best := before.elim none (consider search none)
  let best := considerUntil search start best candidates
  after.elim best (consider search best)

/-- It is the leftmost match of a pattern in the list. Those of the patterns before that one start
further right, and those of the patterns after it no further left. -/
def Preferred (listed : List (α × Pattern)) (a : α) (m : Match) : Prop :=
  ∃ before p after, listed = before ++ (a, p) :: after ∧ search p = some m ∧
    (∀ x ∈ before, ∀ m' ∈ search x.2, m.span.start < m'.span.start) ∧
    ∀ x ∈ after, ∀ m' ∈ search x.2, m.span.start ≤ m'.span.start

def Answers (listed : List (α × Pattern)) : Option (α × Match) → Prop
  | none => ∀ x ∈ listed, search x.2 = none
  | some (a, m) => Preferred search listed a m

variable {search start} {listed : List (α × Pattern)} {a a' : α} {m m' : Match}

/-! ## There is one answer -/

theorem Preferred.exists_mem (h : Preferred search listed a m) : ∃ p, (a, p) ∈ listed ∧ search p = some m := by
  obtain ⟨before, p, after, rfl, hm, _⟩ := h
  exact ⟨p, by simp, hm⟩

theorem preferred_cons {x : α × Pattern} {rest : List (α × Pattern)} :
    Preferred search (x :: rest) a m ↔
      (x.1 = a ∧ search x.2 = some m ∧ ∀ y ∈ rest, ∀ m' ∈ search y.2, m.span.start ≤ m'.span.start) ∨
      ((∀ m' ∈ search x.2, m.span.start < m'.span.start) ∧ Preferred search rest a m) := by
  constructor
  · rintro ⟨before, p, after, hsplit, hm, hbefore, hafter⟩
    cases before with
    | nil =>
      cases hsplit
      exact .inl ⟨rfl, hm, hafter⟩
    | cons y before =>
      obtain ⟨rfl, rfl⟩ := List.cons.inj hsplit
      obtain ⟨hx, hbefore⟩ := List.forall_mem_cons.mp hbefore
      exact .inr ⟨hx, before, p, after, rfl, hm, hbefore, hafter⟩
  · rintro (⟨rfl, hm, hrest⟩ | ⟨hx, before, p, after, rfl, hm, hbefore, hafter⟩)
    · exact ⟨[], x.2, rest, rfl, hm, by simp, hrest⟩
    · exact ⟨x :: before, p, after, rfl, hm, List.forall_mem_cons.mpr ⟨hx, hbefore⟩, hafter⟩

theorem Preferred.unique (h : Preferred search listed a m) (h' : Preferred search listed a' m') : a = a' ∧ m = m' := by
  induction listed with
  | nil =>
    obtain ⟨p, hp, _⟩ := h.exists_mem
    cases hp
  | cons x rest ih =>
    -- two answers of which only one is at the head would each have to start first
    rcases preferred_cons.mp h with ⟨ha, hm, hrest⟩ | ⟨hx, h⟩
    · rcases preferred_cons.mp h' with ⟨ha', hm', _⟩ | ⟨hx', h'⟩
      · rw [hm] at hm'
        exact ⟨ha.symm.trans ha', Option.some.inj hm'⟩
      · obtain ⟨p, hp, hm'⟩ := h'.exists_mem
        have h1 := hx' m hm
        have h2 := hrest _ hp m' hm'
        omega
    · rcases preferred_cons.mp h' with ⟨_, hm', hrest'⟩ | ⟨_, h'⟩
      · obtain ⟨p, hp, hm⟩ := h.exists_mem
        have h1 := hx m' hm'
        have h2 := hrest' _ hp m hm
        omega
      · exact ih h h'

theorem Answers.unique {r r' : Option (α × Match)} (h : Answers search listed r) (h' : Answers search listed r') :
    r = r' := by
  have not_both {b : α} {found : Match} (hnone : Answers search listed none) : ¬Preferred search listed b found := by
    intro hsome
    obtain ⟨p, hp, hm⟩ := hsome.exists_mem
    rw [hnone _ hp] at hm
    cases hm
  cases r with
  | none =>
    cases r' with
    | none => rfl
    | some b => exact absurd h' (not_both h)
  | some b =>
    cases r' with
    | none => exact absurd h (not_both h')
    | some b' =>
      obtain ⟨h1, h2⟩ := Preferred.unique h h'
      exact congrArg some (Prod.ext h1 h2)

/-! ## Pattern by pattern -/

theorem consider_of_none {best : Option (α × Match)} {x : α × Pattern} (hx : search x.2 = none) :
    consider search best x = best := by
  simp [consider, hx]

theorem considerAll_snoc (listed : List (α × Pattern)) (x : α × Pattern) :
    considerAll search (listed ++ [x]) = consider search (considerAll search listed) x := by
  simp [considerAll]

theorem Preferred.snoc {x : α × Pattern} (h : Preferred search listed a m)
    (hx : ∀ m' ∈ search x.2, m.span.start ≤ m'.span.start) : Preferred search (listed ++ [x]) a m := by
  obtain ⟨before, p, after, rfl, hm, hbefore, hafter⟩ := h
  refine ⟨before, p, after ++ [x], by simp, hm, hbefore, ?_⟩
  intro y hy
  rcases List.mem_append.mp hy with hy | hy
  · exact hafter y hy
  · rwa [List.mem_singleton.mp hy]

theorem Preferred.le_of_mem (h : Preferred search listed a m) {x : α × Pattern} (hx : x ∈ listed)
    (hm' : search x.2 = some m') : m.span.start ≤ m'.span.start := by
  obtain ⟨before, p, after, rfl, hm, hbefore, hafter⟩ := h
  rcases List.mem_append.mp hx with hx | hx
  · exact Nat.le_of_lt (hbefore x hx m' hm')
  · rcases List.mem_cons.mp hx with rfl | hx
    · rw [hm] at hm'
      cases hm'
      exact Nat.le_refl _
    · exact hafter x hx m' hm'

theorem answers_considerAll (listed : List (α × Pattern)) : Answers search listed (considerAll search listed) := by
  induction listed using List.reverseRecOn with
  | nil => intro x hx; cases hx
  | append_singleton listed x ih =>
    rw [considerAll_snoc]
    cases hx : search x.2 with
    | none =>
      rw [consider_of_none hx]
      cases hbest : considerAll search listed with
      | none =>
        rw [hbest] at ih
        intro y hy
        rcases List.mem_append.mp hy with hy | hy
        · exact ih y hy
        · rwa [List.mem_singleton.mp hy]
      | some b =>
        rw [hbest] at ih
        exact Preferred.snoc ih (by simp [hx])
    | some m =>
      cases hbest : considerAll search listed with
      | none =>
        rw [hbest] at ih
        simp only [consider, hx]
        refine ⟨listed, x.2, [], rfl, hx, ?_, by simp⟩
        intro y hy m' hm'
        rw [ih y hy] at hm'
        cases hm'
      | some b =>
        obtain ⟨b, found⟩ := b
        rw [hbest] at ih
        simp only [consider, hx]
        by_cases hle : found.span.start ≤ m.span.start
        · rw [if_pos hle]
          apply Preferred.snoc ih
          intro m' hm'
          rw [hx] at hm'
          cases hm'
          exact hle
        · rw [if_neg hle]
          refine ⟨listed, x.2, [], rfl, hx, ?_, by simp⟩
          intro y hy m' hm'
          have := Preferred.le_of_mem ih hy hm'
          omega

/-! ## Stopping early -/

section

variable (bound : ∀ p m, search p = some m → start ≤ m.span.start)

include bound

theorem foldl_consider_of_start (hm : m.span.start = start) (rest : List (α × Pattern)) :
    rest.foldl (consider search) (some (a, m)) = some (a, m) := by
  induction rest with
  | nil => rfl
  | cons x rest ih =>
    have hkept : consider search (some (a, m)) x = some (a, m) := by
      cases hx : search x.2 with
      | none => exact consider_of_none hx
      | some m' =>
        have := bound _ _ hx
        simp only [consider, hx]
        rw [if_pos (by omega)]
    rw [List.foldl_cons, hkept, ih]

theorem considerUntil_eq (best : Option (α × Match)) (listed : List (α × Pattern)) :
    considerUntil search start best listed = listed.foldl (consider search) best := by
  induction listed generalizing best with
  | nil => rfl
  | cons x rest ih =>
    rw [considerUntil]
    by_cases hstop : (best.any fun b => b.2.span.start = start) = true
    · rw [if_pos hstop]
      cases best with
      | none => cases hstop
      | some b => exact (foldl_consider_of_start bound (of_decide_eq_true hstop) (x :: rest)).symm
    · rw [if_neg hstop, ih, List.foldl_cons]

theorem seek_eq (before after : Option (α × Pattern)) (candidates : List (α × Pattern)) :
    seek search start before candidates after = considerAll search (before.toList ++ candidates ++ after.toList) := by
  unfold seek considerAll
  simp only [considerUntil_eq bound, List.foldl_append]
  cases before with
  | none => cases after <;> rfl
  | some x => cases after <;> rfl

end

structure Chooses (search : Pattern → Option Match) (start : Nat) (before : Option (α × Pattern))
    (candidates : List (α × Pattern)) (after : Option (α × Pattern)) (answer : Option (α × Match)) : Prop where
  eq_none_iff : answer = none ↔ ∀ x ∈ before.toList ++ candidates ++ after.toList, search x.2 = none
  eq_some_iff : ∀ a m, answer = some (a, m) ↔ Preferred search (before.toList ++ candidates ++ after.toList) a m
  considered : considerAll search (before.toList ++ candidates ++ after.toList) = answer
  stopped : ∀ tried rest a m, before.toList ++ candidates ++ after.toList = tried ++ rest →
    considerAll search tried = some (a, m) → m.span.start = start → answer = some (a, m)
  sought : seek search start before candidates after = answer

theorem chooses_of_answers (bound : ∀ p m, search p = some m → start ≤ m.span.start)
    {before after : Option (α × Pattern)} {candidates : List (α × Pattern)} {answer : Option (α × Match)}
    (hanswer : Answers search (before.toList ++ candidates ++ after.toList) answer) :
    Chooses search start before candidates after answer := by
  have hconsidered := (answers_considerAll _).unique hanswer
  refine ⟨?_, ?_, hconsidered, ?_, (seek_eq bound before after candidates).trans hconsidered⟩
  · constructor
    · intro h
      rwa [h] at hanswer
    · intro h
      exact hanswer.unique h
  · intro a m
    constructor
    · intro h
      rwa [h] at hanswer
    · intro h
      exact hanswer.unique h
  · intro tried rest a m hsplit htried hm
    rw [← hconsidered, hsplit, considerAll, List.foldl_append]
    exact (congrArg (rest.foldl (consider search)) htried).trans (foldl_consider_of_start bound hm rest)

theorem chooses_seek (bound : ∀ p m, search p = some m → start ≤ m.span.start) (before after : Option (α × Pattern))
    (candidates : List (α × Pattern)) :
    Chooses search start before candidates after (seek search start before candidates after) := by
  apply chooses_of_answers bound
  rw [seek_eq bound]
  exact answers_considerAll _

end Preference

/-! ## Position by position -/

namespace Engine

open Preference

variable {α : Type} {engine : Engine} {text : Array Char} {start : Nat} {listed : List (α × Pattern)} {m : Match}

def first (engine : Engine) (text : Array Char) (start : Nat) (listed : List (α × Pattern)) : Option (α × Match) :=
  firstFrom (fun i => listed.findSome? fun (a, p) => (engine.matchAt p text start i).map (a, ·))
    (text.size + 1 - start) start

theorem matchAt_of_search {p : Pattern} (hm : engine.search p text start = some m) :
    engine.matchAt p text start m.span.start = some m := by
  obtain ⟨i, h1, h2, hi, _⟩ := firstFrom_eq_some hm
  rwa [(engine.bounds (by omega) hi).1]

theorem answers_first : Answers (engine.search · text start) listed (engine.first text start listed) := by
  cases hf : engine.first text start listed with
  | none =>
    intro x hx
    apply firstFrom_eq_none.mpr
    intro i h1 h2
    have hnone := List.findSome?_eq_none_iff.mp (firstFrom_eq_none.mp hf i h1 h2) x hx
    exact Option.map_eq_none_iff.mp hnone
  | some b =>
    obtain ⟨a, m⟩ := b
    obtain ⟨i, h1, h2, hi, hbefore⟩ := firstFrom_eq_some hf
    obtain ⟨before, ⟨_, p⟩, after, rfl, hp, hskipped⟩ := List.findSome?_eq_some_iff.mp hi
    obtain ⟨_, hm, he⟩ := Option.map_eq_some_iff.mp hp
    cases he
    have hmissed {x : α × Pattern} (hx : x ∈ before ++ (a, p) :: after) {j : Nat} (h3 : start ≤ j) (h4 : j < i) :
        engine.matchAt x.2 text start j = none :=
      Option.map_eq_none_iff.mp (List.findSome?_eq_none_iff.mp (hbefore j h3 h4) x hx)
    have hle {x : α × Pattern} (hx : x ∈ before ++ (a, p) :: after) {m' : Match}
        (hm' : engine.search x.2 text start = some m') : i ≤ m'.span.start := by
      by_cases h : i ≤ m'.span.start
      · exact h
      · have hnone := hmissed hx (search_bounds hm').1 (Nat.not_le.mp h)
        rw [matchAt_of_search hm'] at hnone
        cases hnone
    have hstart := (engine.bounds (by omega) hm).1
    refine ⟨before, p, after, rfl, ?_, ?_, ?_⟩
    · exact firstFrom_of_first hm h1 h2 fun j => hmissed (x := (a, p)) (by simp)
    · intro x hx m' hm'
      have h3 := hle (List.mem_append_left _ hx) hm'
      by_cases heq : m'.span.start = i
      · -- a pattern before this one would have been found here
        have hnone := Option.map_eq_none_iff.mp (hskipped x hx)
        rw [← heq, matchAt_of_search hm'] at hnone
        cases hnone
      · omega
    · intro x hx m' hm'
      have h3 := hle (List.mem_append_right _ (List.mem_cons_of_mem _ hx)) hm'
      omega

theorem chooses_first (before after : Option (α × Pattern)) (candidates : List (α × Pattern)) :
    Chooses (engine.search · text start) start before candidates after
      (engine.first text start (before.toList ++ candidates ++ after.toList)) :=
  chooses_of_answers (fun _ _ hm => (search_bounds hm).1) answers_first

end Engine

/-! ## What comes next -/

namespace State

def closing? (s : State) (last : Bool) : Option (Choice × Pattern) :=
  match s.frames with
  | [] => none
  | f :: below => if f.region.lasting = .untilClosed last then some (.leave f below, f.closing) else none

theorem choices_eq_closing (s : State) (g : Grammar) :
    s.choices g = (s.closing? false).toList ++ s.starts g ++ (s.closing? true).toList := by
  unfold choices closing?
  cases s.frames with
  | nil => simp
  | cons f below =>
    simp only
    cases f.region.lasting with
    | untilClosed last => cases last <;> simp
    | whileHolds => simp

end State

namespace Mark

def closingPick? (g : Grammar) (mark : Mark) (last : Bool) : Option (Pick × Pattern) :=
  (mark.region? g).bind fun r =>
    if r.lasting = .untilClosed last then (mark.closing? g).map (Pick.closing, ·) else none

theorem choices_eq_closing (g : Grammar) (mark : Mark) :
    mark.choices g = (mark.closingPick? g false).toList ++ mark.starts g ++ (mark.closingPick? g true).toList := by
  unfold choices closingPick?
  cases mark.region? g with
  | none => simp
  | some r =>
    simp only [Option.bind_some]
    cases r.lasting with
    | untilClosed last => cases last <;> cases mark.closing? g <;> simp
    | whileHolds => simp

end Mark

namespace Highlighter

open Preference

/-- What comes next is the match of the first pattern in the list among those whose leftmost match
starts first, in both forms of a state. Looking for the patterns one after another finds it with any
search that does not go back. -/
theorem next_prefers (h : Highlighter) (text : Array Char) (start : Nat) :
    (∀ s : State, Chooses (h.engine.search · text start) start (s.closing? false) (s.starts h.grammar)
      (s.closing? true) (h.next text start s)) ∧
    (∀ mark below scopes, Chooses (h.engine.search · text start) start (mark.closingPick? h.grammar false)
      (mark.starts h.grammar) (mark.closingPick? h.grammar true) (Marked.next h text start ⟨mark :: below, scopes⟩)) ∧
    ∀ search : Pattern → Option Match, (∀ p m, search p = some m → start ≤ m.span.start) →
      (∀ s : State, Chooses search start (s.closing? false) (s.starts h.grammar) (s.closing? true)
        (seek search start (s.closing? false) (s.starts h.grammar) (s.closing? true))) ∧
      ∀ mark : Mark, Chooses search start (mark.closingPick? h.grammar false) (mark.starts h.grammar)
        (mark.closingPick? h.grammar true)
        (seek search start (mark.closingPick? h.grammar false) (mark.starts h.grammar) (mark.closingPick? h.grammar true)) := by
  refine ⟨?_, ?_, ?_⟩
  · intro s
    have hfirst : h.next text start s = h.engine.first text start (s.choices h.grammar) := rfl
    rw [hfirst, State.choices_eq_closing]
    exact Engine.chooses_first ..
  · intro mark below scopes
    have hfirst : Marked.next h text start ⟨mark :: below, scopes⟩ =
        h.engine.first text start (mark.choices h.grammar) := rfl
    rw [hfirst, Mark.choices_eq_closing]
    exact Engine.chooses_first ..
  · intro search bound
    constructor
    · intro s
      exact chooses_seek bound ..
    · intro mark
      exact chooses_seek bound ..

end Highlighter

end Highlight
