import Highlight.Grammar.Rule

/-!
# Candidates

The rules that may start inside a rule: those in its list, in order, with each
container replaced by the rules in it. What comes up again is passed over.
-/

namespace Highlight

variable {π : Type}

/-- How many of the first `n` numbers are not in a list. -/
def unseen (n : Nat) (seen : List Nat) : Nat :=
  ((List.range n).filter (· ∉ seen)).length

theorem unseen_nil (n : Nat) : unseen n [] = n := by
  rw [unseen, List.filter_eq_self.2 (by simp), List.length_range]

theorem unseen_le (n : Nat) (seen : List Nat) : unseen n seen ≤ n :=
  Nat.le_trans (List.length_filter_le ..) (by simp)

theorem unseen_cons (n i : Nat) (seen : List Nat) :
    unseen n (i :: seen) = (((List.range n).filter (· ∉ seen)).filter (· ≠ i)).length := by
  rw [List.filter_filter]
  simp [unseen]

theorem unseen_cons_le (n i : Nat) (seen : List Nat) :
    unseen n (i :: seen) ≤ unseen n seen :=
  unseen_cons n i seen ▸ List.length_filter_le ..

@[grind →] theorem unseen_cons_lt {n i : Nat} {seen : List Nat} (hi : i < n) (h : i ∉ seen) :
    unseen n (i :: seen) < unseen n seen := by
  rw [unseen_cons, unseen, List.length_filter_lt_length_iff_exists]
  exact ⟨i, by simp [hi, h], by simp⟩

/-- The rules of a list that are no containers and not seen yet. -/
def expand (rules : Array (Rule Nat π)) (ids seen : List Nat) : List Nat :=
  match ids with
  | [] => []
  | id :: ids =>
    if id ∈ seen then expand rules ids seen
    else match _h : rules[id]? with
      | none => expand rules ids (id :: seen)
      | some (.container inner) => expand rules (inner ++ ids) (id :: seen)
      | some _ => id :: expand rules ids (id :: seen)
termination_by (unseen rules.size seen, ids.length)
decreasing_by
  all_goals have := unseen_cons_le rules.size id seen
  all_goals grind

end Highlight
