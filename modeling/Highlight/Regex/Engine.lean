import Highlight.Regex.Error
import Highlight.Regex.Plan
import Highlight.Span

/-!
# Engines

An engine reads patterns and matches them. What relies on patterns takes it as it comes,
and knows of its matches only that they start where they are looked for and end in the text.
-/

namespace Highlight

/-- A pattern that has been read. -/
structure Pattern where
  source : String
  plan : Plan
  /-- The number of its groups. -/
  groups : Nat
  deriving Repr

structure Match where
  span : Span
  /-- The spans of the groups from the first on. -/
  captured : List (Option Span)
  deriving DecidableEq, Repr

/-- The spans of all groups. The match as a whole is group 0. -/
def Match.groups (m : Match) : List (Option Span) :=
  some m.span :: m.captured

/-! ## Positions in order -/

/-- What `f` gives at the first of the `n` positions from `i` on where it gives something. -/
def firstFrom {α : Type} (f : Nat → Option α) : (n : Nat) → (i : Nat) → Option α
  | 0, _ => none
  | n + 1, i =>
    match f i with
    | some a => some a
    | none => firstFrom f n (i + 1)

theorem firstFrom_eq_some {α : Type} {f : Nat → Option α} {n i : Nat} {a : α}
    (h : firstFrom f n i = some a) :
    ∃ j, i ≤ j ∧ j < i + n ∧ f j = some a ∧ ∀ k, i ≤ k → k < j → f k = none := by
  induction n generalizing i with
  | zero => simp [firstFrom] at h
  | succ n ih =>
    rw [firstFrom] at h
    split at h
    · rename_i hi
      cases h
      exact ⟨i, Nat.le_refl i, by omega, hi, fun k h₁ h₂ => by omega⟩
    · rename_i hi
      obtain ⟨j, h₁, h₂, h₃, h₄⟩ := ih h
      refine ⟨j, by omega, by omega, h₃, ?_⟩
      intro k hk hkj
      by_cases hki : k = i
      · rw [hki]
        exact hi
      · exact h₄ k (by omega) hkj

theorem firstFrom_eq_none {α : Type} {f : Nat → Option α} {n i : Nat} :
    firstFrom f n i = none ↔ ∀ j, i ≤ j → j < i + n → f j = none := by
  induction n generalizing i with
  | zero =>
    simp only [firstFrom, true_iff]
    intro j h₁ h₂
    omega
  | succ n ih =>
    rw [firstFrom]
    split
    · rename_i hi
      simp only [reduceCtorEq, false_iff]
      intro h
      rw [h i (Nat.le_refl i) (by omega)] at hi
      cases hi
    · rename_i hi
      rw [ih]
      constructor
      · intro h j h₁ h₂
        by_cases hj : j = i
        · rw [hj]
          exact hi
        · exact h j (by omega) (by omega)
      · intro h j h₁ h₂
        exact h j (by omega) (by omega)

/-! ## Reading and matching -/

structure Engine where
  read : (source : String) → Except Regex.Error Pattern
  /-- The match of a pattern at `i`, in a search that began at `start`. -/
  matchAt : (p : Pattern) → (text : Array Char) → (start i : Nat) → Option Match
  bounds : ∀ {p text start i m}, i ≤ text.size → matchAt p text start i = some m →
    m.span.start = i ∧ i ≤ m.span.stop ∧ m.span.stop ≤ text.size

namespace Engine

/-- The first match that starts at or after `start`. -/
def search (engine : Engine) (p : Pattern) (text : Array Char) (start : Nat) : Option Match :=
  firstFrom (engine.matchAt p text start) (text.size + 1 - start) start

theorem search_bounds {engine : Engine} {p : Pattern} {text : Array Char} {start : Nat} {m : Match}
    (h : engine.search p text start = some m) :
    start ≤ m.span.start ∧ m.span.start ≤ m.span.stop ∧ m.span.stop ≤ text.size := by
  obtain ⟨j, h₁, h₂, h₃, _⟩ := firstFrom_eq_some h
  obtain ⟨rfl, h₅, h₆⟩ := engine.bounds (by omega) h₃
  exact ⟨h₁, h₅, h₆⟩

end Engine

end Highlight
