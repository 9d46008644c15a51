import Highlight.Text.Words
import Mathlib.Data.List.DropRight

/-!
# Trimming

A text that is trimmed loses the blanks at its ends, so that what is left neither begins nor ends
with one. Trimming it again changes nothing, nor does it where a character that is not blank is
put before it.
-/

namespace Highlight.Text

open Unicode (isBlank)

theorem trim_eq_rdropWhile (cs : List Char) : trim cs = (cs.dropWhile isBlank).rdropWhile isBlank := rfl

theorem cut_trim (cs : List Char) :
    ∃ tail, cs = cs.takeWhile isBlank ++ trim cs ++ tail ∧ ∀ c ∈ tail, isBlank c = true := by
  refine ⟨(cs.dropWhile isBlank).rtakeWhile isBlank, ?_, fun c hc => List.mem_rtakeWhile_imp hc⟩
  rw [List.append_assoc, trim_eq_rdropWhile, List.rdropWhile_append_rtakeWhile, List.takeWhile_append_dropWhile]

theorem trim_eq_nil_iff {cs : List Char} : trim cs = [] ↔ ∀ c ∈ cs, isBlank c = true := by
  rw [trim_eq_rdropWhile, List.rdropWhile_eq_nil_iff]
  constructor
  · intro h c hc
    rw [← List.takeWhile_append_dropWhile (p := isBlank) (l := cs), List.mem_append] at hc
    rcases hc with hc | hc
    · exact List.mem_takeWhile_imp hc
    · exact h c hc
  · intro h c hc
    exact h c ((List.dropWhile_sublist isBlank).subset hc)

theorem isBlank_head_trim {cs : List Char} {c : Char} (h : (trim cs).head? = some c) : isBlank c = false := by
  have hhead := List.head?_dropWhile_not isBlank cs
  have hprefix := List.rdropWhile_prefix isBlank (cs.dropWhile isBlank)
  rw [← trim_eq_rdropWhile] at hprefix
  obtain ⟨rest, hrest⟩ := hprefix
  rw [← hrest, List.head?_append, h] at hhead
  exact hhead

theorem isBlank_getLast_trim {cs : List Char} {c : Char} (h : (trim cs).getLast? = some c) : isBlank c = false := by
  obtain ⟨hne, rfl⟩ := List.mem_getLast?_eq_getLast h
  have hlast := List.rdropWhile_last_not isBlank (cs.dropWhile isBlank) hne
  exact Bool.eq_false_iff.mpr hlast

theorem trim_eq_self_iff {cs : List Char} :
    trim cs = cs ↔ (∀ c, cs.head? = some c → isBlank c = false) ∧ ∀ c, cs.getLast? = some c → isBlank c = false := by
  constructor
  · intro h
    constructor
    · intro c hc
      rw [← h] at hc
      exact isBlank_head_trim hc
    · intro c hc
      rw [← h] at hc
      exact isBlank_getLast_trim hc
  · rintro ⟨hhead, hlast⟩
    have hstart : cs.dropWhile isBlank = cs := by
      cases cs with
      | nil => rfl
      | cons c cs => simp [hhead c rfl]
    rw [trim_eq_rdropWhile, hstart, List.rdropWhile_eq_self_iff]
    intro hne
    rw [hlast _ (List.getLast?_eq_some_getLast hne)]
    simp

theorem trim_cons_of_blank {c : Char} (hc : isBlank c = true) (cs : List Char) : trim (c :: cs) = trim cs := by
  rw [trim_eq_rdropWhile, trim_eq_rdropWhile, List.dropWhile_cons_of_pos hc]

theorem trim_cons_of_not_blank {c : Char} (hc : isBlank c = false) {cs : List Char} (hcs : trim cs = cs) :
    trim (c :: cs) = c :: cs := by
  rw [trim_eq_self_iff] at hcs ⊢
  constructor
  · intro d hd
    cases hd
    exact hc
  · intro d hd
    cases cs with
    | nil =>
      cases hd
      exact hc
    | cons e cs => exact hcs.2 d (by rwa [List.getLast?_cons_cons] at hd)

end Highlight.Text
