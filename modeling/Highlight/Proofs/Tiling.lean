import Highlight.Painting

/-!
# Gapless painting

Where each piece is painted from where the paint ends, the stretches of a line
tile it: there is no gap between them, none is empty, and two neighbours never
have the same scopes.
-/

namespace Highlight.Painting

/-- Stretches from right to left that tile the positions up to a bound. -/
inductive Tiling : List Stretch → Nat → Prop
  | nil : Tiling [] 0
  | cons {s : Stretch} {before : List Stretch} : Tiling before s.span.start → s.span.start < s.span.stop →
      (∀ t ∈ before.head?, t.scopes ≠ s.scopes) → Tiling (s :: before) s.span.stop

structure Painted (p : Painting) (i : Nat) : Prop where
  tiled : Tiling p.stretches p.covered
  inside : p.covered ≤ p.length
  reached : min i p.length ≤ p.covered

theorem Tiling.of_cons {s : Stretch} {before : List Stretch} {i : Nat} (h : Tiling (s :: before) i) :
    i = s.span.stop ∧ Tiling before s.span.start ∧ s.span.start < s.span.stop ∧
      ∀ t ∈ before.head?, t.scopes ≠ s.scopes := by
  cases h with
  | cons hb hlt hne => exact ⟨rfl, hb, hlt, hne⟩

theorem painted_blank (n : Nat) : (blank n).Painted 0 :=
  ⟨.nil, Nat.zero_le n, by rw [Nat.zero_min]; exact Nat.zero_le _⟩

@[simp] theorem length_add (p : Painting) (s : Stretch) : (p.add s).length = p.length := by
  unfold add
  split
  · rfl
  · split <;> rfl

@[simp] theorem length_paint (p : Painting) (start stop : Nat) (scopes : List String) :
    (p.paint start stop scopes).length = p.length := by
  unfold paint
  simp only
  split
  · exact length_add p _
  · rfl

theorem covered_add (p : Painting) (s : Stretch) : (p.add s).covered = s.span.stop := by
  unfold add
  split
  · rfl
  · split <;> rfl

theorem tiling_add {p : Painting} {s : Stretch} (ht : Tiling p.stretches p.covered)
    (hs : p.covered = s.span.start) (hlt : s.span.start < s.span.stop) :
    Tiling (p.add s).stretches s.span.stop := by
  obtain ⟨n, l⟩ := p
  rw [hs] at ht
  unfold add
  cases l with
  | nil => exact .cons ht hlt (by simp)
  | cons last before =>
    simp only
    by_cases hm : last.span.stop = s.span.start ∧ last.scopes = s.scopes
    · rw [if_pos hm]
      obtain ⟨_, hb, hl, hne⟩ := ht.of_cons
      have hlt : last.span.start < s.span.stop := by omega
      exact .cons (s := ⟨⟨last.span.start, s.span.stop⟩, last.scopes⟩) hb hlt hne
    · rw [if_neg hm]
      refine .cons ht hlt ?_
      intro t htm
      cases htm
      exact fun he => hm ⟨hs, he⟩

/-- Painting on from where the paint ends, or from before, leaves no gap. -/
theorem Painted.paint {p : Painting} {start : Nat} (h : p.Painted start) (stop : Nat) (scopes : List String) :
    (p.paint start stop scopes).Painted stop := by
  obtain ⟨ht, hin, hr⟩ := h
  by_cases hlt : max start p.covered < min stop p.length
  · have hfree : max start p.covered = p.covered := by omega
    have he : p.paint start stop scopes = p.add ⟨⟨p.covered, min stop p.length⟩, scopes⟩ := by
      unfold Painting.paint
      simp only [hfree, if_pos (hfree ▸ hlt)]
    rw [he]
    refine ⟨?_, ?_, ?_⟩
    · rw [covered_add]
      exact tiling_add ht rfl (hfree ▸ hlt)
    · rw [covered_add, length_add]
      exact Nat.min_le_right _ _
    · rw [covered_add]
      exact Nat.le_of_eq (congrArg (min stop) (length_add p _))
  · have he : p.paint start stop scopes = p := by
      unfold Painting.paint
      simp only [if_neg hlt]
    rw [he]
    exact ⟨ht, hin, by omega⟩

end Highlight.Painting
