import Highlight.Proofs.Delimiters
import Mathlib.Logic.Relation

/-!
# Counting delimiters

A count goes up with each opening text of a pair and down with each closing one, as the lines
of a text are read from left to right. It knows nothing of rules and regions.
-/

namespace Highlight

inductive Delimiter where
  | opening
  | closing
  deriving DecidableEq, Repr

def Delimiter.count (depth : Nat) : Delimiter → Nat
  | opening => depth + 1
  | closing => depth - 1

structure Delimiters where
  opening : String
  closing : String
  opening_ne : opening ≠ ""
  closing_ne : closing ≠ ""
  opening_line : Text.lineEnd ∉ opening.toList
  closing_line : Text.lineEnd ∉ closing.toList

/-- How far a text has been read, and how much has been opened and not closed. -/
structure Count where
  line : Nat
  position : Nat
  depth : Nat
  deriving DecidableEq, Repr

def Count.UpTo (n : Count) (a z : Nat) : Prop :=
  n.line < a ∨ n.line = a ∧ n.position ≤ z

namespace Delimiters

variable (D : Delimiters)

def text : Delimiter → String
  | .opening => D.opening
  | .closing => D.closing

/-- The delimiter at a position. Where both stand, it is the closing one. -/
def at? (l : List Char) (x : Nat) : Option (Delimiter × Nat) :=
  if Text.StandsAt D.closing l.toArray x then some (.closing, x)
  else if Text.StandsAt D.opening l.toArray x then some (.opening, x)
  else none

def first? (l : List Char) (i : Nat) : Option (Delimiter × Nat) :=
  firstFrom (D.at? l) (l.length + 1 - i) i

def next? (lines : List (List Char)) (n : Count) : Option Count :=
  match lines[n.line]? with
  | none => none
  | some l =>
    match D.first? l n.position with
    | some (d, x) => some ⟨n.line, x + (D.text d).length, d.count n.depth⟩
    | none => if n.line + 1 < lines.length then some ⟨n.line + 1, 0, n.depth⟩ else none

def LeadsTo (lines : List (List Char)) (n n' : Count) : Prop :=
  0 < n.depth ∧ D.next? lines n = some n'

def Counts (lines : List (List Char)) : Count → Count → Prop :=
  Relation.ReflTransGen (D.LeadsTo lines)

def stopOf (l : List Char) (i : Nat) : Nat :=
  match D.first? l i with
  | some (d, x) => x + (D.text d).length
  | none => l.length

variable {D : Delimiters} {d : Delimiter} {l : List Char} {i x : Nat} {lines : List (List Char)} {n : Count}

theorem text_ne (d : Delimiter) : D.text d ≠ "" := by
  cases d with
  | opening => exact D.opening_ne
  | closing => exact D.closing_ne

theorem length_text_pos (d : Delimiter) : 0 < (D.text d).length :=
  Nat.pos_of_ne_zero fun hz => text_ne d (String.length_eq_zero_iff.mp hz)

theorem line_text (d : Delimiter) : Text.lineEnd ∉ (D.text d).toList := by
  cases d with
  | opening => exact D.opening_line
  | closing => exact D.closing_line

theorem stands_of_at? (h : D.at? l x = some (d, i)) : i = x ∧ Text.StandsAt (D.text d) l.toArray x := by
  unfold at? at h
  by_cases hc : Text.StandsAt D.closing l.toArray x
  · rw [if_pos hc] at h
    cases h
    exact ⟨rfl, hc⟩
  · rw [if_neg hc] at h
    by_cases ho : Text.StandsAt D.opening l.toArray x
    · rw [if_pos ho] at h
      cases h
      exact ⟨rfl, ho⟩
    · rw [if_neg ho] at h
      cases h

theorem first?_eq_some (h : D.first? l i = some (d, x)) : i ≤ x ∧ Text.StandsAt (D.text d) l.toArray x := by
  obtain ⟨j, h1, _, h3, _⟩ := firstFrom_eq_some h
  obtain ⟨rfl, hstands⟩ := stands_of_at? h3
  exact ⟨h1, hstands⟩

theorem first?_le (h : D.first? l i = some (d, x)) : i ≤ x ∧ x + (D.text d).length ≤ l.length := by
  obtain ⟨hi, hstands⟩ := first?_eq_some h
  exact ⟨hi, hstands.le_size (text_ne d)⟩

theorem at?_of_length_le (hx : l.length ≤ x) : D.at? l x = none := by
  cases h : D.at? l x with
  | none => rfl
  | some dx =>
    obtain ⟨d, y⟩ := dx
    have hsize := (stands_of_at? h).2.le_size (text_ne d)
    have hpos := length_text_pos (D := D) d
    rw [List.size_toArray] at hsize
    omega

theorem next?_of_some (hl : lines[n.line]? = some l) (hf : D.first? l n.position = some (d, x)) :
    D.next? lines n = some ⟨n.line, x + (D.text d).length, d.count n.depth⟩ := by
  unfold next?
  simp only [hl, hf]

theorem next?_of_none (hl : lines[n.line]? = some l) (hf : D.first? l n.position = none) :
    D.next? lines n = if n.line + 1 < lines.length then some ⟨n.line + 1, 0, n.depth⟩ else none := by
  unfold next?
  simp only [hl, hf]

theorem stopOf_of_some (hf : D.first? l i = some (d, x)) : D.stopOf l i = x + (D.text d).length := by
  unfold stopOf
  rw [hf]

theorem stopOf_of_none (hf : D.first? l i = none) : D.stopOf l i = l.length := by
  unfold stopOf
  rw [hf]

/-- A position that is not read from a count on lies after the next count, which is closer. -/
theorem exists_next {a z : Nat} (hl : lines[a]? = some l) (hz : z < l.length) (hn : n.UpTo a z)
    (hunread : ¬(n.line = a ∧ z < D.stopOf l n.position)) : ∃ n', D.next? lines n = some n' ∧ n'.UpTo a z ∧
      Prod.Lex (· < ·) (· < ·) (a - n'.line, (lines[n'.line]?.getD []).length + 1 - n'.position)
        (a - n.line, (lines[n.line]?.getD []).length + 1 - n.position) := by
  have hlength := (List.getElem?_eq_some_iff.mp hl).1
  have hlt : n.line < lines.length := by
    rcases hn with hlt | ⟨he, _⟩ <;> omega
  have hl₀ : lines[n.line]? = some lines[n.line] := List.getElem?_eq_getElem hlt
  have heq (he : n.line = a) : lines[n.line] = l := by
    subst he
    exact Option.some.inj (hl₀.symm.trans hl)
  cases hf : D.first? lines[n.line] n.position with
  | some dx =>
    obtain ⟨d, x⟩ := dx
    obtain ⟨hx, hstop⟩ := first?_le hf
    have htext := length_text_pos (D := D) d
    refine ⟨_, next?_of_some hl₀ hf, ?_, .right _ ?_⟩
    · rcases hn with hlt | ⟨he, _⟩
      · exact .inl hlt
      · rw [heq he] at hf
        rw [stopOf_of_some hf] at hunread
        exact .inr ⟨he, Nat.not_lt.mp fun h => hunread ⟨he, h⟩⟩
    · simp only [hl₀, Option.getD_some]
      omega
  | none =>
    have hbefore : n.line < a := by
      refine hn.resolve_right fun ⟨he, _⟩ => hunread ⟨he, ?_⟩
      rw [heq he] at hf
      rwa [stopOf_of_none hf]
    refine ⟨⟨n.line + 1, 0, n.depth⟩, ?_, ?_, .left _ _ (show a - (n.line + 1) < a - n.line by omega)⟩
    · rw [next?_of_none hl₀ hf, if_pos (by omega)]
    · by_cases he : n.line + 1 = a
      · exact .inr ⟨he, Nat.zero_le z⟩
      · exact .inl (show n.line + 1 < a by omega)

/-- As the lines are read, each position comes to be read, unless everything has been closed before. -/
theorem exists_count {a z : Nat} (hl : lines[a]? = some l) (hz : z < l.length) (n : Count) (hn : n.UpTo a z) :
    ∃ n', D.Counts lines n n' ∧ n'.UpTo a z ∧
      (n'.depth = 0 ∨ 0 < n'.depth ∧ n'.line = a ∧ z < D.stopOf l n'.position) := by
  by_cases hdepth : n.depth = 0
  · exact ⟨n, .refl, hn, .inl hdepth⟩
  · have hpos : 0 < n.depth := Nat.pos_of_ne_zero hdepth
    by_cases hread : n.line = a ∧ z < D.stopOf l n.position
    · exact ⟨n, .refl, hn, .inr ⟨hpos, hread⟩⟩
    · obtain ⟨n₁, hnext, hn₁, hcloser⟩ := exists_next hl hz hn hread
      obtain ⟨n', hcounts, h'⟩ := exists_count hl hz n₁ hn₁
      exact ⟨n', .head ⟨hpos, hnext⟩ hcounts, h'⟩
termination_by (a - n.line, (lines[n.line]?.getD []).length + 1 - n.position)
decreasing_by exact hcloser

end Delimiters

/-! ## Searches -/

theorem firstFrom_succ {α : Type} {f : Nat → Option α} : ∀ {n i : Nat}, f (i + n) = none →
    firstFrom f (n + 1) i = firstFrom f n i
  | 0, i, hf => by
    rw [Nat.add_zero] at hf
    rw [firstFrom, firstFrom, firstFrom, hf]
  | n + 1, i, hf => by
    have hnext : firstFrom f (n + 1) (i + 1) = firstFrom f n (i + 1) :=
      firstFrom_succ (by rwa [Nat.add_assoc, Nat.add_comm 1])
    rw [firstFrom, hnext, ← firstFrom]

/-- The line end that is added to a line adds no place for a text without line ends. -/
theorem Text.standsAt_withEnd {t : String} {l : List Char} (hend : lineEnd ∉ t.toList) {x : Nat} :
    StandsAt t (withEnd l) x ↔ StandsAt t l.toArray x := by
  show t.toList <+: (l ++ [lineEnd]).drop x ↔ t.toList <+: l.drop x
  by_cases hx : x ≤ l.length
  · rw [List.drop_append_of_le_length hx, List.prefix_concat_iff]
    constructor
    · rintro (he | hp)
      · exact absurd (he ▸ List.mem_append_right _ (List.mem_singleton_self _)) hend
      · exact hp
    · exact .inr
  · have hdrop : (l ++ [lineEnd]).drop x = [] := List.drop_eq_nil_of_le (by simp; omega)
    rw [hdrop, List.drop_eq_nil_of_le (by omega)]

end Highlight
