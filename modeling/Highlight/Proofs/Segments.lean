import Highlight.Highlighter.Captures

/-!
# The segments of a match

The segments follow one another from the start of the match to its end, each a
part of it that is not empty.
-/

namespace Highlight

/-! ## Captures that count -/

theorem Span.clampTo_inside {outer s : Span} (h : outer.start ≤ outer.stop) :
    outer.start ≤ (outer.clampTo s).start ∧ (outer.clampTo s).stop ≤ outer.stop := by
  unfold clampTo
  exact ⟨Nat.le_max_left _ _, by simp only; omega⟩

theorem Active.inside_of_span? {m : Match} (hm : m.span.start ≤ m.span.stop) {group : Nat} {s : Span}
    (hs : span? m group = some s) : m.span.start ≤ s.start ∧ s.start < s.stop ∧ s.stop ≤ m.span.stop := by
  unfold span? at hs
  split at hs
  · simp only at hs
    split at hs
    · rename_i hlt
      cases hs
      exact ⟨(Span.clampTo_inside hm).1, hlt, (Span.clampTo_inside hm).2⟩
    · cases hs
  · cases hs

theorem Active.span_of_mem_collect {m : Match} {captures : List (Capture Nat)} {found : List Active}
    {a : Active} (ha : a ∈ collect m found captures) :
    a ∈ found ∨ span? m a.capture.group = some a.span := by
  induction captures generalizing found with
  | nil => exact .inl ha
  | cons c cs ih =>
    rw [collect] at ha
    split at ha
    · exact ih ha
    · rename_i s hs
      rcases ih ha with hf | hi
      · split at hf
        · exact .inl hf
        · rcases List.mem_append.mp hf with hf | hf
          · exact .inl hf
          · cases List.mem_singleton.mp hf
            exact .inr hs
      · exact .inr hi

theorem Active.inside_of_mem_ofMatch {m : Match} (hm : m.span.start ≤ m.span.stop)
    {captures : List (Capture Nat)} {a : Active} (ha : a ∈ ofMatch m captures) :
    m.span.start ≤ a.span.start ∧ a.span.start < a.span.stop ∧ a.span.stop ≤ m.span.stop := by
  rcases span_of_mem_collect ha with h | h
  · cases h
  · exact inside_of_span? hm h

namespace Segment

/-! ## Bounds in order -/

theorem pairwise_eraseDups : ∀ {l : List Nat}, l.Pairwise (· ≤ ·) → l.eraseDups.Pairwise (· < ·)
  | [], _ => .nil
  | a :: l, h => by
    rw [List.eraseDups_cons]
    obtain ⟨ha, hl⟩ := List.pairwise_cons.mp h
    refine .cons ?_ (pairwise_eraseDups (hl.filter _))
    intro b hb
    obtain ⟨hb, hne⟩ := List.mem_filter.mp (List.mem_eraseDups.mp hb)
    have hne : b ≠ a := by simpa using hne
    have := ha b hb
    omega
termination_by l => l.length
decreasing_by exact Nat.lt_succ_of_le (List.length_filter_le _ _)

theorem pairwise_bounds (whole : Span) (actives : List Active) : (bounds whole actives).Pairwise (· < ·) := by
  unfold bounds
  apply pairwise_eraseDups
  have := @List.pairwise_mergeSort Nat (fun a b => decide (a ≤ b))
    (fun a b c hab hbc => by simp only [decide_eq_true_eq] at *; omega)
    (fun a b => by simp only [Bool.or_eq_true, decide_eq_true_eq]; omega)
    (whole.start :: whole.stop :: actives.flatMap fun a => [a.span.start, a.span.stop])
  exact this.imp fun h => of_decide_eq_true h

theorem mem_bounds {whole : Span} {actives : List Active} {i : Nat} :
    i ∈ bounds whole actives ↔
      i = whole.start ∨ i = whole.stop ∨ ∃ a ∈ actives, i = a.span.start ∨ i = a.span.stop := by
  unfold bounds
  rw [List.mem_eraseDups, List.mem_mergeSort]
  simp

theorem eq_cons_of_least {l : List Nat} {a : Nat} (hl : l.Pairwise (· < ·)) (ha : a ∈ l)
    (hle : ∀ b ∈ l, a ≤ b) : ∃ rest, l = a :: rest := by
  cases l with
  | nil => cases ha
  | cons b rest =>
    rcases List.mem_cons.mp ha with rfl | hr
    · exact ⟨rest, rfl⟩
    · have h1 := (List.pairwise_cons.mp hl).1 a hr
      have h2 := hle b (List.mem_cons_self ..)
      omega

theorem getLastD_of_greatest : ∀ {rest : List Nat} {a z : Nat}, (a :: rest).Pairwise (· < ·) →
    z ∈ a :: rest → (∀ b ∈ a :: rest, b ≤ z) → rest.getLastD a = z
  | [], a, z, _, hz, _ => by
    rw [List.mem_singleton] at hz
    exact hz.symm
  | b :: rest, a, z, hl, hz, hle => by
    rw [List.getLastD_cons]
    obtain ⟨ha, hr⟩ := List.pairwise_cons.mp hl
    refine getLastD_of_greatest hr ?_ fun c hc => hle c (List.mem_cons_of_mem a hc)
    rcases List.mem_cons.mp hz with rfl | hz
    · have h1 := ha b (List.mem_cons_self ..)
      have h2 := hle b (List.mem_cons_of_mem z (List.mem_cons_self ..))
      omega
    · exact hz

/-! ## Segments in order -/

def Linked : Nat → List Segment → Nat → Prop
  | i, [], j => i = j
  | i, s :: rest, j => s.span.start = i ∧ s.span.start < s.span.stop ∧ Linked s.span.stop rest j

theorem Linked.le : ∀ {segments : List Segment} {i j : Nat}, Linked i segments j → i ≤ j
  | [], _, _, h => Nat.le_of_eq h
  | s :: _, _, _, ⟨hi, hlt, hr⟩ => by
    have := hr.le
    omega

theorem Linked.inside_of_mem : ∀ {segments : List Segment} {i j : Nat} {s : Segment}, Linked i segments j →
    s ∈ segments → i ≤ s.span.start ∧ s.span.start < s.span.stop ∧ s.span.stop ≤ j
  | t :: rest, i, j, s, ⟨hi, hlt, hr⟩, hs => by
    rcases List.mem_cons.mp hs with rfl | hs
    · have := hr.le
      omega
    · have := hr.inside_of_mem hs
      omega

variable (actives : List Active) (scopes : List String) (groups : List (Option String))

theorem linked_between : ∀ (rest : List Nat) (a : Nat), (a :: rest).Pairwise (· < ·) →
    Linked a (((a :: rest).zip rest).map fun b => between actives scopes groups ⟨b.1, b.2⟩)
      (rest.getLastD a)
  | [], _, _ => rfl
  | b :: rest, a, h => by
    obtain ⟨ha, hr⟩ := List.pairwise_cons.mp h
    rw [List.zip_cons_cons, List.map_cons, List.getLastD_cons]
    exact ⟨rfl, ha b (List.mem_cons_self ..), linked_between rest b hr⟩

theorem linked_ofMatch (text : Array Char) {m : Match} (hm : m.span.start ≤ m.span.stop)
    (captures : List (Capture Nat)) (scopes : List String) :
    Linked m.span.start (ofMatch text m captures scopes) m.span.stop := by
  have hb : ∀ i ∈ bounds m.span (Active.ofMatch m captures), m.span.start ≤ i ∧ i ≤ m.span.stop := by
    intro i hi
    rcases mem_bounds.mp hi with rfl | rfl | ⟨a, ha, hi⟩
    · exact ⟨Nat.le_refl _, hm⟩
    · exact ⟨hm, Nat.le_refl _⟩
    · have := Active.inside_of_mem_ofMatch hm ha
      omega
  have hsort := pairwise_bounds m.span (Active.ofMatch m captures)
  obtain ⟨rest, hr⟩ := eq_cons_of_least hsort (mem_bounds.mpr (.inl rfl)) fun i hi => (hb i hi).1
  have hlast : rest.getLastD m.span.start = m.span.stop := by
    refine getLastD_of_greatest (hr ▸ hsort) ?_ ?_
    · rw [← hr]
      exact mem_bounds.mpr (.inr (.inl rfl))
    · rw [← hr]
      exact fun i hi => (hb i hi).2
  unfold ofMatch
  simp only [hr, List.tail_cons]
  have := linked_between (Active.ofMatch m captures) scopes (m.texts text) rest _ (hr ▸ hsort)
  rw [hlast] at this
  exact this

end Segment

end Highlight
