import Highlight.Proofs.LineText

/-!
# Offsets of positions

Offsets grow with the positions they belong to. So a byte belongs to one character, and where a
text is put together from others, each starts after the bytes of those before it.
-/

namespace Highlight.Text

theorem offsetAt_zero (l : List Char) : offsetAt l 0 = 0 := by
  cases l <;> rfl

theorem offsetAt_mono (l : List Char) {i j : Nat} (h : i ≤ j) : offsetAt l i ≤ offsetAt l j := by
  induction l generalizing i j with
  | nil => exact Nat.le_refl _
  | cons c l ih =>
    cases i with
    | zero => exact Nat.zero_le _
    | succ i =>
      cases j with
      | zero => omega
      | succ j => exact Nat.add_le_add_left (ih (by omega)) _

/-- A byte belongs to the character at a position. -/
theorem exists_position {l : List Char} {i j b : Nat} (hi : offsetAt l i ≤ b) (hj : b < offsetAt l j) :
    ∃ x, i ≤ x ∧ x < j ∧ x < l.length ∧ offsetAt l x ≤ b ∧ b < offsetAt l (x + 1) := by
  induction j with
  | zero =>
    rw [offsetAt_zero] at hj
    omega
  | succ j ih =>
    by_cases hb : b < offsetAt l j
    · obtain ⟨x, h1, h2, h3⟩ := ih hb
      exact ⟨x, h1, by omega, h3⟩
    · refine ⟨j, ?_, Nat.lt_succ_self j, ?_, Nat.not_lt.mp hb, hj⟩
      · by_cases hle : i ≤ j
        · exact hle
        · have := offsetAt_mono l (show j + 1 ≤ i by omega)
          omega
      · by_cases hlt : j < l.length
        · exact hlt
        · have h1 := offsetAt_eq l j
          have h2 := offsetAt_eq l (j + 1)
          rw [List.take_of_length_le (by omega)] at h1 h2
          omega

theorem offsetAt_lt {l : List Char} {i j : Nat} (hij : i < j) (hi : i < l.length) : offsetAt l i < offsetAt l j := by
  induction l generalizing i j with
  | nil => cases hi
  | cons c l ih =>
    cases j with
    | zero => omega
    | succ j =>
      have hc : 0 < c.utf8Size := Char.utf8Size_pos c
      cases i with
      | zero =>
        rw [offsetAt_zero, offsetAt]
        omega
      | succ i =>
        rw [List.length_cons] at hi
        exact Nat.add_lt_add_left (ih (by omega) (by omega)) _

theorem offsetAt_le_iff {l : List Char} {i j : Nat} (hj : j < l.length) : offsetAt l i ≤ offsetAt l j ↔ i ≤ j := by
  constructor
  · intro h
    by_cases hij : i ≤ j
    · exact hij
    · have := offsetAt_lt (Nat.not_le.mp hij) hj
      omega
  · exact offsetAt_mono l

theorem offsetAt_lt_iff {l : List Char} {i j : Nat} (hi : i < l.length) : offsetAt l i < offsetAt l j ↔ i < j := by
  constructor
  · intro h
    by_cases hij : i < j
    · exact hij
    · have := offsetAt_mono l (Nat.not_lt.mp hij)
      omega
  · intro h
    exact offsetAt_lt h hi

theorem offsetAt_length_add (cs ds : List Char) (i : Nat) :
    offsetAt (cs ++ ds) (cs.length + i) = byteCount cs + offsetAt ds i := by
  induction cs with
  | nil => simp [byteCount]
  | cons c cs ih =>
    rw [List.cons_append, List.length_cons, Nat.add_right_comm, offsetAt, ih, byteCount, Nat.add_assoc]

theorem offsetAt_length (cs ds : List Char) : offsetAt (cs ++ ds) cs.length = byteCount cs :=
  offsetAt_length_add cs ds 0 |>.trans (by rw [offsetAt_zero, Nat.add_zero])

theorem positionAt_byteCount (ds : List Char) : ∀ cs : List Char, positionAt (cs ++ ds) (byteCount cs) = cs.length
  | [] => by
    cases ds with
    | nil => rfl
    | cons d ds => exact if_pos rfl
  | c :: cs => by
    have hc : 0 < c.utf8Size := Char.utf8Size_pos c
    rw [List.cons_append, positionAt, byteCount, if_neg (by omega), Nat.add_sub_cancel_left,
      positionAt_byteCount ds cs, List.length_cons]

theorem extract_append (cs ds es : List Char) : (cs ++ ds ++ es).extract cs.length (cs.length + ds.length) = ds := by
  rw [List.extract_eq_drop_take', List.append_assoc, List.take_length_add_append, List.take_left, List.drop_left]

end Highlight.Text
