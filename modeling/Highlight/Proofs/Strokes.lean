import Highlight.Proofs.Bytes
import Mathlib.Data.List.Induction
import Mathlib.Data.List.Pairwise

/-!
# Strokes in any order

A line can be painted with any strokes: over what is painted already, past the end of the line,
with gaps between them or with nothing in them. Its stretches stay in order all the same, and a
position has the scopes of the first stroke over it that comes before the paint has gone beyond it.
-/

namespace Highlight.Painting

/-- The stretches hold something and end on the line. From right to left each starts where those
after it have ended, and with other scopes than a stretch that it touches. -/
structure Orderly (p : Painting) : Prop where
  nonempty : ∀ s ∈ p.stretches, s.span.start < s.span.stop
  inside : ∀ s ∈ p.stretches, s.span.stop ≤ p.length
  apart : p.stretches.Pairwise fun s t => t.span.stop ≤ s.span.start
  differing : p.stretches.Pairwise fun s t => t.span.stop = s.span.start → t.scopes ≠ s.scopes

inductive Stroked (p : Painting) (i j : Nat) (scopes : List String) : Painting → Prop
  | nothing (h : min j p.length ≤ max i p.covered) : Stroked p i j scopes p
  | longer {last before} (h : max i p.covered < min j p.length) (hp : p.stretches = last :: before)
    (hstop : last.span.stop = max i p.covered) (hscopes : last.scopes = scopes) :
    Stroked p i j scopes ⟨p.length, ⟨⟨last.span.start, min j p.length⟩, scopes⟩ :: before⟩
  | added (h : max i p.covered < min j p.length)
    (hlast : ∀ last ∈ p.stretches.head?, last.span.stop = max i p.covered → last.scopes ≠ scopes) :
    Stroked p i j scopes ⟨p.length, ⟨⟨max i p.covered, min j p.length⟩, scopes⟩ :: p.stretches⟩

theorem stroked_paint (p : Painting) (i j : Nat) (scopes : List String) : Stroked p i j scopes (p.paint i j scopes) := by
  unfold paint
  simp only
  by_cases h : max i p.covered < min j p.length
  · rw [if_pos h]
    unfold add
    cases hp : p.stretches with
    | nil =>
      have hadded : Stroked p i j scopes _ := .added h (by simp [hp])
      rwa [hp] at hadded
    | cons last before =>
      simp only
      by_cases hmerge : last.span.stop = max i p.covered ∧ last.scopes = scopes
      · rw [if_pos hmerge, hmerge.2]
        exact .longer h hp hmerge.1 hmerge.2
      · rw [if_neg hmerge]
        have hadded : Stroked p i j scopes _ := .added h (by
          rw [hp]
          rintro _ ⟨⟩ hstop hscopes
          exact hmerge ⟨hstop, hscopes⟩)
        rwa [hp] at hadded
  · rw [if_neg h]
    exact .nothing (Nat.not_lt.mp h)

section

variable {p : Painting} {i j x : Nat} {scopes scopes' : List String}

theorem covered_paint (p : Painting) (i j : Nat) (scopes : List String) : (p.paint i j scopes).covered =
    if max i p.covered < min j p.length then min j p.length else p.covered := by
  have hstroked := stroked_paint p i j scopes
  generalize p.paint i j scopes = q at hstroked
  cases hstroked with
  | nothing h => rw [if_neg (Nat.not_lt.mpr h)]
  | longer h => rw [if_pos h]; rfl
  | added h => rw [if_pos h]; rfl

theorem orderly_blank (n : Nat) : (blank n).Orderly :=
  ⟨List.forall_mem_nil _, List.forall_mem_nil _, .nil, .nil⟩

namespace Orderly

theorem stop_le_covered (h : p.Orderly) {s : Stretch} (hs : s ∈ p.stretches) : s.span.stop ≤ p.covered := by
  obtain ⟨n, stretches⟩ := p
  cases stretches with
  | nil => cases hs
  | cons last before =>
    show s.span.stop ≤ last.span.stop
    rcases List.mem_cons.mp hs with rfl | hs
    · exact Nat.le_refl _
    · have hlast := h.nonempty last (List.mem_cons_self ..)
      have hapart := (List.pairwise_cons.mp h.apart).1 s hs
      omega

theorem covered_le (h : p.Orderly) : p.covered ≤ p.length := by
  obtain ⟨n, stretches⟩ := p
  cases stretches with
  | nil => exact Nat.zero_le _
  | cons last before => exact h.inside last (List.mem_cons_self ..)

theorem lt_covered (h : p.Orderly) (hx : p.At x scopes) : x < p.covered := by
  obtain ⟨s, hs, _, hlt, _⟩ := hx
  exact Nat.lt_of_lt_of_le hlt (h.stop_le_covered hs)

/-- No position has two stacks of scopes. -/
theorem eq_of_at (h : p.Orderly) (hx : p.At x scopes) (hx' : p.At x scopes') : scopes = scopes' := by
  obtain ⟨s, hs, h1, h2, rfl⟩ := hx
  obtain ⟨t, ht, h3, h4, rfl⟩ := hx'
  by_cases hst : s = t
  · rw [hst]
  · have hapart : p.stretches.Pairwise fun s t => t.span.stop ≤ s.span.start ∨ s.span.stop ≤ t.span.start :=
      h.apart.imp Or.inl
    have : Std.Symm fun s t : Stretch => t.span.stop ≤ s.span.start ∨ s.span.stop ≤ t.span.start := ⟨fun _ _ => Or.symm⟩
    have hdisjoint := hapart.forall hs ht hst
    omega

/-- Only the last stretch can end where the paint ends. -/
theorem head_of_stop (h : p.Orderly) {s : Stretch} (hs : s ∈ p.stretches) (hstop : p.covered ≤ s.span.stop) :
    p.stretches.head? = some s := by
  obtain ⟨n, stretches⟩ := p
  cases stretches with
  | nil => cases hs
  | cons last before =>
    have hcovered : last.span.stop ≤ s.span.stop := hstop
    rcases List.mem_cons.mp hs with rfl | hs
    · rfl
    · have hlast := h.nonempty last (List.mem_cons_self ..)
      have hapart := (List.pairwise_cons.mp h.apart).1 s hs
      omega

protected theorem paint (h : p.Orderly) (i j : Nat) (scopes : List String) : (p.paint i j scopes).Orderly := by
  have hstroked := stroked_paint p i j scopes
  generalize p.paint i j scopes = q at hstroked
  cases hstroked with
  | nothing => exact h
  | @longer last before hlt hp hstop hscopes =>
    obtain ⟨hnonempty, hinside, hapart, hdiffering⟩ := h
    rw [hp, List.forall_mem_cons] at hnonempty hinside
    rw [hp, List.pairwise_cons] at hapart hdiffering
    refine ⟨List.forall_mem_cons.mpr ⟨?_, hnonempty.2⟩, List.forall_mem_cons.mpr ⟨Nat.min_le_right .., hinside.2⟩,
      List.pairwise_cons.mpr hapart, List.pairwise_cons.mpr (hscopes ▸ hdiffering)⟩
    have := hnonempty.1
    show last.span.start < min j p.length
    omega
  | added hlt hlast =>
    refine ⟨List.forall_mem_cons.mpr ⟨hlt, h.nonempty⟩, List.forall_mem_cons.mpr ⟨Nat.min_le_right .., h.inside⟩,
      List.pairwise_cons.mpr ⟨?_, h.apart⟩, List.pairwise_cons.mpr ⟨?_, h.differing⟩⟩
    · intro t ht
      exact Nat.le_trans (h.stop_le_covered ht) (Nat.le_max_right ..)
    · intro t ht hstop
      have hcovered : p.covered ≤ t.span.stop := by
        rw [hstop]
        exact Nat.le_max_right ..
      exact hlast t (h.head_of_stop ht hcovered) hstop

/-- A stroke paints what is free under it and leaves the rest. -/
theorem at_paint_iff (h : p.Orderly) : (p.paint i j scopes).At x scopes' ↔
    p.At x scopes' ∨ max i p.covered ≤ x ∧ x < min j p.length ∧ scopes' = scopes := by
  have hstroked := stroked_paint p i j scopes
  generalize p.paint i j scopes = q at hstroked
  unfold At
  cases hstroked with
  | nothing hle =>
    constructor
    · exact Or.inl
    · rintro (hx | ⟨h1, h2, _⟩)
      · exact hx
      · omega
  | @longer last before hlt hp hstop hscopes =>
    have hlast := h.nonempty last (hp ▸ List.mem_cons_self ..)
    simp only [hp, List.exists_mem_cons_iff, hscopes]
    constructor
    · rintro (⟨h1, h2, hsame⟩ | hx)
      · by_cases hx : x < last.span.stop
        · exact .inl (.inl ⟨h1, hx, hsame⟩)
        · exact .inr ⟨by omega, h2, hsame.symm⟩
      · exact .inl (.inr hx)
    · rintro ((⟨h1, h2, hsame⟩ | hx) | ⟨h1, h2, hsame⟩)
      · exact .inl ⟨h1, by omega, hsame⟩
      · exact .inr hx
      · exact .inl ⟨by omega, h2, hsame.symm⟩
  | added hlt =>
    simp only [List.exists_mem_cons_iff]
    constructor
    · rintro (⟨h1, h2, hsame⟩ | hx)
      · exact .inr ⟨h1, h2, hsame.symm⟩
      · exact .inl hx
    · rintro (hx | ⟨h1, h2, hsame⟩)
      · exact .inr hx
      · exact .inl ⟨h1, h2, hsame.symm⟩

theorem covered_paint_of_le (h : p.Orderly) (hi : i ≤ p.covered) :
    (p.paint i j scopes).covered = max p.covered (min j p.length) := by
  have hcovered := h.covered_le
  rw [covered_paint]
  split
  · omega
  · omega

theorem exists_at_paint_iff (h : p.Orderly) (hi : i ≤ p.covered) :
    (∃ scopes', (p.paint i j scopes).At x scopes') ↔ (∃ scopes', p.At x scopes') ∨ p.covered ≤ x ∧ x < min j p.length := by
  simp only [h.at_paint_iff, Nat.max_eq_right hi, exists_or, exists_and_left, exists_eq, and_true]

end Orderly

end

/-! ## All strokes -/

def paintAll (p : Painting) (strokes : List Stretch) : Painting :=
  strokes.foldl (fun p s => p.paint s.span.start s.span.stop s.scopes) p

theorem paintAll_append (p : Painting) (strokes more : List Stretch) :
    p.paintAll (strokes ++ more) = (p.paintAll strokes).paintAll more :=
  List.foldl_append

theorem paintAll_append_singleton (p : Painting) (strokes : List Stretch) (s : Stretch) :
    p.paintAll (strokes ++ [s]) = (p.paintAll strokes).paint s.span.start s.span.stop s.scopes :=
  paintAll_append p strokes [s]

theorem length_paintAll : ∀ (strokes : List Stretch) (p : Painting), (p.paintAll strokes).length = p.length
  | [], _ => rfl
  | _ :: strokes, _ => (length_paintAll strokes _).trans (length_paint ..)

theorem Orderly.paintAll : ∀ (strokes : List Stretch) {p : Painting}, p.Orderly → (p.paintAll strokes).Orderly
  | [], _, h => h
  | s :: strokes, _, h => Orderly.paintAll strokes (h.paint s.span.start s.span.stop s.scopes)

theorem At.paintAll {x : Nat} {scopes : List String} :
    ∀ (strokes : List Stretch) {p : Painting}, p.At x scopes → (p.paintAll strokes).At x scopes
  | [], _, h => h
  | s :: strokes, _, h => At.paintAll strokes (h.paint s.span.start s.span.stop s.scopes)

/-- The stroke with this number is over the position, and the paint has not gone beyond the position before it. -/
structure Takes (n : Nat) (strokes : List Stretch) (x k : Nat) (s : Stretch) : Prop where
  stroke : strokes[k]? = some s
  start_le : s.span.start ≤ x
  lt_stop : x < s.span.stop
  free : ((blank n).paintAll (strokes.take k)).covered ≤ x

section

variable {n x k : Nat} {strokes more : List Stretch} {s : Stretch} {scopes : List String}

theorem orderly_run (n : Nat) (strokes : List Stretch) : ((blank n).paintAll strokes).Orderly :=
  (orderly_blank n).paintAll strokes

theorem Takes.append (h : Takes n strokes x k s) (more : List Stretch) : Takes n (strokes ++ more) x k s := by
  obtain ⟨hk, _⟩ := List.getElem?_eq_some_iff.mp h.stroke
  refine ⟨?_, h.start_le, h.lt_stop, ?_⟩
  · rw [List.getElem?_append_left hk]
    exact h.stroke
  · rw [List.take_append_of_le_length (Nat.le_of_lt hk)]
    exact h.free

theorem Takes.at (h : Takes n strokes x k s) (hx : x < n) : ((blank n).paintAll strokes).At x s.scopes := by
  obtain ⟨hk, hs⟩ := List.getElem?_eq_some_iff.mp h.stroke
  have hsplit : strokes = strokes.take k ++ ([s] ++ strokes.drop (k + 1)) := by
    rw [List.singleton_append, ← hs, List.getElem_cons_drop, List.take_append_drop]
  rw [hsplit, paintAll_append, paintAll_append]
  apply At.paintAll
  refine (orderly_run n _).at_paint_iff.mpr (.inr ⟨?_, ?_, rfl⟩)
  · exact Nat.max_le.mpr ⟨h.start_le, h.free⟩
  · rw [length_paintAll]
    exact Nat.lt_min.mpr ⟨h.lt_stop, hx⟩

theorem exists_takes (h : ((blank n).paintAll strokes).At x scopes) :
    x < n ∧ ∃ k s, Takes n strokes x k s ∧ s.scopes = scopes := by
  induction strokes using List.reverseRecOn with
  | nil =>
    obtain ⟨s, hs, _⟩ := h
    cases hs
  | append_singleton strokes s ih =>
    rw [paintAll_append_singleton] at h
    rcases (orderly_run n strokes).at_paint_iff.mp h with h | ⟨h1, h2, hsame⟩
    · obtain ⟨hx, k, t, ht, hscopes⟩ := ih h
      exact ⟨hx, k, t, ht.append [s], hscopes⟩
    · rw [length_paintAll] at h2
      rw [Nat.max_le] at h1
      rw [Nat.lt_min] at h2
      refine ⟨h2.2, strokes.length, s, ⟨?_, h1.1, h2.1, ?_⟩, hsame.symm⟩
      · rw [List.getElem?_append_right (Nat.le_refl _), Nat.sub_self]
        rfl
      · rw [List.take_left]
        exact h1.2

/-- Once a stroke has taken a position no other one does. -/
theorem Takes.first (h : Takes n strokes x k s) (hx : x < n) {j : Nat} {t : Stretch} (hj : j < k) :
    ¬Takes n strokes x j t := by
  intro ht
  have htake : Takes n (strokes.take k) x j t := by
    refine ⟨?_, ht.start_le, ht.lt_stop, ?_⟩
    · rw [List.getElem?_take_of_lt hj]
      exact ht.stroke
    · rw [List.take_take, Nat.min_eq_left (Nat.le_of_lt hj)]
      exact ht.free
  exact absurd ((orderly_run n _).lt_covered (htake.at hx)) (Nat.not_lt.mpr h.free)

/-! ## Strokes without gaps -/

def furthest (strokes : List Stretch) : Nat :=
  (strokes.map (·.span.stop)).foldl max 0

theorem furthest_append_singleton (strokes : List Stretch) (s : Stretch) :
    furthest (strokes ++ [s]) = max (furthest strokes) s.span.stop := by
  unfold furthest
  rw [List.map_append, List.foldl_append]
  rfl

def Gapless (n : Nat) (strokes : List Stretch) : Prop :=
  ∀ k s, strokes[k]? = some s → s.span.start ≤ ((blank n).paintAll (strokes.take k)).covered

theorem Gapless.of_append_singleton (h : Gapless n (strokes ++ [s])) :
    Gapless n strokes ∧ s.span.start ≤ ((blank n).paintAll strokes).covered := by
  constructor
  · intro k t ht
    obtain ⟨hk, _⟩ := List.getElem?_eq_some_iff.mp ht
    have hstart := h k t (by rw [List.getElem?_append_left hk]; exact ht)
    rwa [List.take_append_of_le_length (Nat.le_of_lt hk)] at hstart
  · have hstart := h strokes.length s (by rw [List.getElem?_append_right (Nat.le_refl _), Nat.sub_self]; rfl)
    rwa [List.take_left] at hstart

theorem covered_of_gapless (h : Gapless n strokes) :
    ((blank n).paintAll strokes).covered = min n (furthest strokes) ∧
      ∀ x, (∃ scopes, ((blank n).paintAll strokes).At x scopes) ↔ x < ((blank n).paintAll strokes).covered := by
  induction strokes using List.reverseRecOn with
  | nil =>
    refine ⟨(Nat.min_zero n).symm, fun x => ⟨?_, fun hx => absurd hx (Nat.not_lt_zero x)⟩⟩
    rintro ⟨scopes, s, hs, _⟩
    cases hs
  | append_singleton strokes s ih =>
    obtain ⟨hgapless, hstart⟩ := h.of_append_singleton
    obtain ⟨hcovered, hat⟩ := ih hgapless
    have horderly := orderly_run n strokes
    have hlength : ((blank n).paintAll strokes).length = n := length_paintAll strokes _
    rw [paintAll_append_singleton, furthest_append_singleton, horderly.covered_paint_of_le hstart, hlength]
    refine ⟨by omega, fun x => ?_⟩
    rw [horderly.exists_at_paint_iff hstart, hat x, hlength]
    omega

end

/-- Whatever strokes a line is painted with, its stretches stay in order, and paint stays as it is. A
position has the scopes of the first stroke that takes it, and strokes without gaps between them
paint all that is on the line up to the furthest of their ends. -/
theorem strokes_in_order (n : Nat) (strokes : List Stretch) :
    ((blank n).paintAll strokes).Orderly ∧ ((blank n).paintAll strokes).length = n ∧
    (∀ x scopes, ((blank n).paintAll strokes).At x scopes →
      ∀ more scopes', ((blank n).paintAll (strokes ++ more)).At x scopes' ↔ scopes' = scopes) ∧
    (∀ x scopes, ((blank n).paintAll strokes).At x scopes ↔
      x < n ∧ ∃ k s, Takes n strokes x k s ∧ s.scopes = scopes ∧ ∀ j < k, ∀ t, ¬Takes n strokes x j t) ∧
    (Gapless n strokes →
      ∀ x, (∃ scopes, ((blank n).paintAll strokes).At x scopes) ↔ x < min n (furthest strokes)) := by
  refine ⟨orderly_run n strokes, length_paintAll strokes _, ?_, ?_, ?_⟩
  · intro x scopes hx more scopes'
    rw [paintAll_append]
    have hstays := hx.paintAll more
    constructor
    · intro hx'
      exact ((orderly_run n strokes).paintAll more).eq_of_at hx' hstays
    · rintro rfl
      exact hstays
  · intro x scopes
    constructor
    · intro hat
      obtain ⟨hx, k, s, hk, hscopes⟩ := exists_takes hat
      exact ⟨hx, k, s, hk, hscopes, fun j hj t => hk.first hx hj⟩
    · rintro ⟨hx, k, s, hk, rfl, _⟩
      exact hk.at hx
  · intro hgapless x
    obtain ⟨hcovered, hat⟩ := covered_of_gapless hgapless
    rw [hat x, hcovered]

theorem strokes_in_order_overlapping :
    Gapless 4 [⟨⟨0, 2⟩, ["a"]⟩, ⟨⟨1, 9⟩, ["b"]⟩] ∧
      ∀ x, (∃ scopes, ((blank 4).paintAll [⟨⟨0, 2⟩, ["a"]⟩, ⟨⟨1, 9⟩, ["b"]⟩]).At x scopes) ↔
        x < min 4 (furthest [⟨⟨0, 2⟩, ["a"]⟩, ⟨⟨1, 9⟩, ["b"]⟩]) := by
  have hgapless : Gapless 4 [⟨⟨0, 2⟩, ["a"]⟩, ⟨⟨1, 9⟩, ["b"]⟩] := by
    intro k s hs
    match k with
    | 0 =>
      cases hs
      decide
    | 1 =>
      cases hs
      decide
    | k + 2 => cases hs
  exact ⟨hgapless, (strokes_in_order 4 _).2.2.2.2 hgapless⟩

-- the second stroke comes too late for the first position, which stays free
example : ((blank 6).paintAll [⟨⟨1, 3⟩, ["a"]⟩, ⟨⟨0, 5⟩, ["b"]⟩, ⟨⟨4, 9⟩, ["b"]⟩]).stretches =
    [⟨⟨3, 6⟩, ["b"]⟩, ⟨⟨1, 3⟩, ["a"]⟩] := by
  decide

end Highlight.Painting
