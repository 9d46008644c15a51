import Highlight.Regex.Engine
import Highlight.Regex.Matching
import Highlight.Regex.Reader

/-!
# Searching by trying every way

The engine that the program runs with tries the positions of a text in order, and at each every
way to match.
-/

namespace Highlight

/-! ## Matches at a position -/

/-- The match of a pattern that starts at `i`, in a search that began at `start`. -/
def Pattern.matchAt (p : Pattern) (text : Array Char) (start i : Nat) : Option Match :=
  (Regex.run ⟨text, start⟩ p.plan i (List.replicate p.groups none) fun j g => some ⟨j, g⟩).map
    fun e => ⟨⟨i, e.stop⟩, e.groups⟩

theorem Pattern.matchAt_bounds {p : Pattern} {text : Array Char} {start i : Nat} {m : Match}
    (hi : i ≤ text.size) (h : p.matchAt text start i = some m) :
    m.span.start = i ∧ i ≤ m.span.stop ∧ m.span.stop ≤ text.size := by
  obtain ⟨e, he, rfl⟩ := Option.map_eq_some_iff.1 h
  obtain ⟨j, g, hij, hj, hk⟩ := Regex.of_run (s := ⟨text, start⟩) hi he
  cases hk
  exact ⟨rfl, hij, hj⟩

/-- Reading what is written, and matching by trying every way, in order. -/
def Engine.backtracking : Engine where
  read := Pattern.ofSource
  matchAt := Pattern.matchAt
  bounds := Pattern.matchAt_bounds

/-! ## What a match needs -/

/-- Sets of which each match holds a character. -/
def Plan.needs : Plan → List CharSet
  | text cs => cs.map CharSet.single
  | set s => [s]
  | seq a b => a.needs ++ b.needs
  | group _ p | atomic p => p.needs
  | loop p min _ _ _ _ => if min = 0 then [] else p.needs
  | alt _ _ | anchor _ | ahead _ _ | behind _ _ _ _ | backreference _ _ => []

/-- Whether a set has a character that stands at `i` or after it. -/
def hasFrom (text : Array Char) (i : Nat) (s : CharSet) : Bool :=
  text.any s.contains i

theorem hasFrom_of_le {text : Array Char} {i j : Nat} {s : CharSet} (hij : i ≤ j)
    (h : hasFrom text j s) : hasFrom text i s := by
  obtain ⟨n, hn, h₁, h₂, h₃⟩ := Array.any_iff_exists.1 h
  exact Array.any_iff_exists.2 ⟨n, hn, by omega, h₂, h₃⟩

theorem hasFrom_of_getElem? {text : Array Char} {i : Nat} {c : Char} {s : CharSet}
    (hc : text[i]? = some c) (h : s.contains c) : hasFrom text i s := by
  obtain ⟨hi, rfl⟩ := Array.getElem?_eq_some_iff.1 hc
  exact Array.any_iff_exists.2 ⟨i, hi, Nat.le_refl i, hi, h⟩

theorem hasFrom_of_after? {s : Regex.Subject} {cs : List Char} {i j : Nat}
    (h : s.after? cs i = some j) : ∀ n ∈ cs.map CharSet.single, hasFrom s.text i n := by
  induction cs generalizing i with
  | nil => simp
  | cons c cs ih =>
    simp only [Regex.Subject.after?] at h
    split at h
    · rename_i hc
      intro n hn
      rw [List.map_cons, List.mem_cons] at hn
      rcases hn with rfl | hn
      · exact hasFrom_of_getElem? hc (by simp [CharSet.single, CharSet.contains])
      · exact hasFrom_of_le (Nat.le_succ i) (ih h n hn)
    · simp at h

theorem hasFrom_of_run {s : Regex.Subject} {p : Plan} {i : Nat} {g : Regex.Captured}
    {k : Nat → Regex.Captured → Option Regex.Reached} {e : Regex.Reached} (hi : i ≤ s.text.size)
    (h : Regex.run s p i g k = some e) : ∀ n ∈ p.needs, hasFrom s.text i n := by
  induction p generalizing i g k e with
  | text cs =>
    rw [Regex.run] at h
    split at h
    · rename_i j hj
      exact hasFrom_of_after? hj
    · cases h
  | set cs =>
    rw [Regex.run] at h
    unfold Regex.Subject.step at h
    split at h
    · rename_i c hc
      split at h
      · rename_i hs
        intro n hn
        rw [Plan.needs, List.mem_singleton] at hn
        rw [hn]
        exact hasFrom_of_getElem? hc hs
      · cases h
    · cases h
  | seq a b iha ihb =>
    rw [Regex.run] at h
    intro n hn
    rw [Plan.needs, List.mem_append] at hn
    rcases hn with hn | hn
    · exact iha hi h n hn
    · obtain ⟨j, g', hij, hj, hk⟩ := Regex.of_run hi h
      exact hasFrom_of_le hij (ihb hj hk n hn)
  | group n p ih =>
    rw [Regex.run] at h
    exact ih hi h
  | atomic p ih =>
    rw [Regex.run] at h
    split at h
    · rename_i e' he
      exact ih hi he
    · cases h
  | loop p min max greedy counted watched ih =>
    cases min with
    | zero => simp [Plan.needs]
    | succ min =>
      rw [Regex.run] at h
      simp only [Plan.needs, Nat.succ_ne_zero, if_false]
      exact ih hi h
  | alt _ _ => simp [Plan.needs]
  | anchor _ => simp [Plan.needs]
  | ahead _ _ => simp [Plan.needs]
  | behind _ _ _ _ => simp [Plan.needs]
  | backreference _ _ => simp [Plan.needs]

namespace Pattern

/-- The first match that starts at or after `start`. It is not looked for where
something is missing that each match needs. -/
def search (p : Pattern) (text : Array Char) (start : Nat) : Option Match :=
  if p.plan.needs.all (hasFrom text start) then Engine.backtracking.search p text start else none

theorem search_eq (p : Pattern) (text : Array Char) (start : Nat) :
    p.search text start = Engine.backtracking.search p text start := by
  unfold search
  split
  · rfl
  · rename_i hneeds
    refine Eq.symm (firstFrom_eq_none.2 ?_)
    intro j h₁ h₂
    refine Option.map_eq_none_iff.2 (Option.eq_none_iff_forall_ne_some.2 ?_)
    intro e he
    refine hneeds (List.all_eq_true.2 ?_)
    intro n hn
    exact hasFrom_of_le h₁ (hasFrom_of_run (s := ⟨text, start⟩) (by simp only; omega) he n hn)

end Pattern

end Highlight
