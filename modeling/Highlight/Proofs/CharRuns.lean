import Highlight.Text.Digits
import Mathlib.Data.List.Basic
import Mathlib.Data.List.TakeWhile

/-!
# Runs of characters

A run of characters of one kind goes as far as it can, so a text is cut in one way only into a
run and what follows it. Where a number can be read there is a run of digits and nothing else, except
for a plus sign.
-/

namespace Highlight.Text

section

variable {α : Type} {p : α → Bool} {run run' rest rest' : List α}

theorem takeWhile_run (hrun : ∀ a ∈ run, p a = true) (hrest : ∀ a, rest.head? = some a → p a = false) :
    (run ++ rest).takeWhile p = run := by
  rw [List.takeWhile_append_of_pos hrun]
  cases rest with
  | nil => simp
  | cons a rest => simp [hrest a rfl]

theorem dropWhile_run (hrun : ∀ a ∈ run, p a = true) (hrest : ∀ a, rest.head? = some a → p a = false) :
    (run ++ rest).dropWhile p = rest := by
  rw [List.dropWhile_append_of_pos hrun]
  cases rest with
  | nil => simp
  | cons a rest => simp [hrest a rfl]

theorem run_unique (hrun : ∀ a ∈ run, p a = true) (hrest : ∀ a, rest.head? = some a → p a = false)
    (hrun' : ∀ a ∈ run', p a = true) (hrest' : ∀ a, rest'.head? = some a → p a = false)
    (h : run ++ rest = run' ++ rest') : run = run' ∧ rest = rest' := by
  constructor
  · rw [← takeWhile_run hrun hrest, h, takeWhile_run hrun' hrest']
  · rw [← dropWhile_run hrun hrest, h, dropWhile_run hrun' hrest']

end

/-! ## Numbers -/

theorem numberOf_digit {d : Char} (hd : d.isDigit = true) : numberOf 10 [d] = d.toNat - '0'.toNat := by
  have hrange : ('0' ≤ d && d ≤ '9') = true := hd
  simp only [numberOf, List.foldl_cons, List.foldl_nil, hexValue?, hrange, if_true, Option.getD_some]
  omega

theorem numberOf_eq_ofDigitChars {ds : List Char} (hds : ∀ d ∈ ds, d.isDigit = true) :
    numberOf 10 ds = Nat.ofDigitChars 10 ds 0 := by
  unfold numberOf Nat.ofDigitChars
  apply List.foldl_ext
  intro n d hd
  have hdigit := numberOf_digit (hds d hd)
  simp only [numberOf, List.foldl_cons, List.foldl_nil, Nat.mul_zero, Nat.zero_add] at hdigit
  rw [hdigit]

def Writes (cs : List Char) (n : Nat) : Prop :=
  ∃ ds, (cs = ds ∨ cs = '+' :: ds) ∧ ds ≠ [] ∧ (∀ d ∈ ds, d.isDigit = true) ∧ Nat.ofDigitChars 10 ds 0 = n ∧
    n ≤ maxNumber

/-- The digits are what is left when a plus sign is taken away. -/
theorem unsigned_eq_iff {cs ds : List Char} (hds : ∀ d ∈ ds, d.isDigit = true) :
    (if cs.head? = some '+' then cs.tail else cs) = ds ↔ cs = ds ∨ cs = '+' :: ds := by
  cases cs with
  | nil => simp
  | cons c cs =>
    by_cases hc : c = '+'
    · subst hc
      have hplus : '+' :: cs ≠ ds := by
        rintro rfl
        exact absurd (hds '+' (List.mem_cons_self ..)) (by decide)
      simp [hplus]
    · simp [hc]

theorem number?_eq_some_iff {cs : List Char} {n : Nat} : number? cs = some n ↔ Writes cs n := by
  unfold number? Writes
  rw [Option.ite_none_right_eq_some, List.all_eq_true]
  constructor
  · rintro ⟨⟨hne, hdigits, hle⟩, hn⟩
    rw [numberOf_eq_ofDigitChars hdigits, Option.some.injEq] at hn
    rw [numberOf_eq_ofDigitChars hdigits, hn] at hle
    exact ⟨_, (unsigned_eq_iff hdigits).mp rfl, hne, hdigits, hn, hle⟩
  · rintro ⟨ds, hcs, hne, hdigits, hn, hle⟩
    rw [(unsigned_eq_iff hdigits).mpr hcs, numberOf_eq_ofDigitChars hdigits, hn]
    exact ⟨⟨hne, hdigits, hle⟩, rfl⟩

theorem not_writes_nil {n : Nat} : ¬Writes [] n := by
  rintro ⟨ds, rfl | hds, hne, _⟩
  · exact hne rfl
  · cases hds

end Highlight.Text
