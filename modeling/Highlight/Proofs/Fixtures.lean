import Highlight.Fixture.Assertions
import Highlight.Fixture.LineStarts
import Highlight.Proofs.LineText

/-!
# Fixtures

The code lines of a fixture are lines of its source, and an assertion speaks of one of
them, at columns that are not empty.
-/

namespace Highlight

namespace Fixture

theorem Marks.columns_ofScope (columns : Span) (scope : List Char) : (ofScope columns scope).columns = columns := by
  unfold ofScope
  split
  · rfl
  · rfl

theorem Line.eq_of_classify_eq_code {text code : String} (h : classify text = .code code) : code = text := by
  unfold classify at h
  split at h
  · split at h
    · cases h
    · cases h
      rfl
  · cases h
    rfl

/-- There is at least one caret. -/
theorem Line.lt_of_classify_eq_assertion {text : String} {marks : Marks} (h : classify text = .assertion marks) :
    marks.columns.start < marks.columns.stop := by
  unfold classify at h
  split at h
  · split at h
    · cases h
      rw [Marks.columns_ofScope]
      exact Nat.lt_add_of_pos_right (Nat.succ_pos _)
    · cases h
  · cases h

theorem length_codeOf_cons_code (text : String) (ls : List Line) :
    (codeOf (.code text :: ls)).length = (codeOf ls).length + 1 := rfl

theorem of_mem_anchor : ∀ {ls : List Line} {number above : Nat} {a : Assertion}, a ∈ anchor number above ls →
    a.codeLine < above + (codeOf ls).length ∧ .assertion a.toMarks ∈ ls
  | [], _, _, _, h => by cases h
  | .code text :: ls, number, above, a, h => by
    rw [anchor] at h
    obtain ⟨hlt, hmem⟩ := of_mem_anchor h
    refine ⟨?_, List.mem_cons_of_mem _ hmem⟩
    rw [length_codeOf_cons_code]
    omega
  | .assertion marks :: ls, number, 0, a, h => by
    rw [anchor] at h
    obtain ⟨hlt, hmem⟩ := of_mem_anchor h
    exact ⟨hlt, List.mem_cons_of_mem _ hmem⟩
  | .assertion marks :: ls, number, above + 1, a, h => by
    rw [anchor] at h
    rcases List.mem_cons.mp h with rfl | h
    · exact ⟨by simp only; omega, List.mem_cons_self ..⟩
    · obtain ⟨hlt, hmem⟩ := of_mem_anchor h
      exact ⟨hlt, List.mem_cons_of_mem _ hmem⟩

variable {source : String}

theorem codeLine_lt {a : Assertion} (ha : a ∈ (parse source).assertions) :
    a.codeLine < (parse source).codeLines.length := by
  have := (of_mem_anchor ha).1
  rw [Nat.zero_add] at this
  exact this

theorem columns_lt {a : Assertion} (ha : a ∈ (parse source).assertions) : a.columns.start < a.columns.stop := by
  obtain ⟨text, _, htext⟩ := List.mem_map.mp (of_mem_anchor ha).2
  exact Line.lt_of_classify_eq_assertion htext

theorem mem_lines_of_mem_codeLines {line : String} (hl : line ∈ (parse source).codeLines) :
    line ∈ Text.lines source := by
  obtain ⟨l, hmem, hl⟩ := List.mem_filterMap.mp hl
  obtain ⟨text, htext, rfl⟩ := List.mem_map.mp hmem
  split at hl
  · rename_i code hcode
    cases hl
    rw [Line.eq_of_classify_eq_code hcode]
    exact htext
  · cases hl

theorem lines_code (hne : (parse source).codeLines ≠ []) : Text.lines (parse source).code = (parse source).codeLines :=
  Text.lines_unlines (fun _ hl => Text.not_mem_of_mem_lines (mem_lines_of_mem_codeLines hl)) hne

end Fixture

namespace LineStarts

theorem getElem?_startsFrom : ∀ {ls : List String} (offset : Nat) {i : Nat} {line : String}, ls[i]? = some line →
    (startsFrom offset ls)[i]? = some (offset + Text.lineStart ls i)
  | [], _, _, _, h => by cases h
  | l :: ls, offset, 0, _, _ => rfl
  | l :: ls, offset, i + 1, line, h => by
    have ih := getElem?_startsFrom (offset + l.utf8ByteSize + Text.lineEnd.utf8Size) (show ls[i]? = some line from h)
    rw [startsFrom, List.getElem?_cons_succ, ih, Text.lineStart_succ]
    simp only [Nat.add_assoc]

theorem absolute?_ofLines {ls : List String} {i : Nat} {line : String} (h : ls[i]? = some line) (columns : Span) :
    (ofLines ls).absolute? i columns = some (columns.shift (Text.lineStart ls i)) := by
  unfold absolute? start? ofLines
  rw [getElem?_startsFrom 0 h, Nat.zero_add]
  rfl

end LineStarts

end Highlight
