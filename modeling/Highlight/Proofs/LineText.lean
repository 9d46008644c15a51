import Highlight.Text.Offsets

/-!
# Lines in a text

Where a line starts in the text that joins it with others, and which bytes of the
text are its own.
-/

namespace Highlight.Text

theorem utf8ByteSize_ofList (l : List Char) : (String.ofList l).utf8ByteSize = byteCount l := by
  induction l with
  | nil => rfl
  | cons c cs ih =>
    have hs : String.ofList (c :: cs) = String.ofList [c] ++ String.ofList cs := by
      rw [← String.ofList_append]
      rfl
    have hc : (String.ofList [c]).utf8ByteSize = c.utf8Size := by
      rw [← String.singleton_eq_ofList, String.utf8ByteSize_singleton]
    rw [hs, String.utf8ByteSize_append, hc, ih, byteCount]

theorem byteCount_toList (s : String) : byteCount s.toList = s.utf8ByteSize := by
  rw [← utf8ByteSize_ofList, String.ofList_toList]

theorem extract_toByteArray {s a b c : String} (h : s = a ++ b ++ c) :
    s.toByteArray.extract a.utf8ByteSize (a.utf8ByteSize + b.utf8ByteSize) = b.toByteArray := by
  rw [h, String.append_assoc, String.toByteArray_append, ← Nat.add_zero a.utf8ByteSize, Nat.add_assoc,
    ByteArray.extract_append_size_add' (String.size_toByteArray).symm, Nat.zero_add,
    String.toByteArray_append]
  exact ByteArray.extract_append_eq_left (String.size_toByteArray).symm

/-! ## Cutting at line ends -/

theorem unlines_lines (s : String) : unlines (lines s) = s := by
  have hmap : (lines s).map String.toList = s.toList.splitOn lineEnd := by
    unfold lines
    rw [List.map_map]
    have : String.toList ∘ String.ofList = id := by
      funext l
      exact String.toList_ofList
    rw [this, List.map_id]
  unfold unlines
  rw [hmap, List.intercalate_splitOn, String.ofList_toList]

theorem lines_append (s t : String) : lines (s ++ "\n" ++ t) = lines s ++ lines t := by
  have : (s ++ "\n" ++ t).toList = s.toList ++ lineEnd :: t.toList := by
    rw [String.toList_append, String.toList_append, List.append_assoc]
    rfl
  unfold lines
  rw [this, List.splitOn_append_cons_self, List.map_append]

theorem lines_ne_nil (s : String) : lines s ≠ [] := by
  unfold lines
  intro h
  exact List.splitOn_ne_nil lineEnd s.toList (List.map_eq_nil_iff.mp h)

theorem not_mem_of_mem_splitOn {x : Char} : ∀ {l m : List Char}, m ∈ l.splitOn x → x ∉ m
  | [], m, hm => by
    rw [List.splitOn_nil, List.mem_singleton] at hm
    rw [hm]
    exact List.not_mem_nil
  | c :: l, m, hm => by
    rw [List.splitOn_cons_eq_if_modifyHead] at hm
    split at hm
    · rcases List.mem_cons.mp hm with rfl | hm
      · exact List.not_mem_nil
      · exact not_mem_of_mem_splitOn hm
    · rename_i hc
      cases hs : l.splitOn x with
      | nil => exact absurd hs (List.splitOn_ne_nil x l)
      | cons n rest =>
        rw [hs, List.modifyHead_cons] at hm
        have hmem (k : List Char) (hk : k ∈ n :: rest) : x ∉ k := not_mem_of_mem_splitOn (hs ▸ hk)
        rcases List.mem_cons.mp hm with rfl | hm
        · rw [List.mem_cons, not_or]
          exact ⟨fun he => hc (by simp [he]), hmem n (List.mem_cons_self ..)⟩
        · exact hmem m (List.mem_cons_of_mem n hm)

theorem not_mem_of_mem_lines {s l : String} (hl : l ∈ lines s) : lineEnd ∉ l.toList := by
  obtain ⟨m, hm, rfl⟩ := List.mem_map.mp hl
  rw [String.toList_ofList]
  exact not_mem_of_mem_splitOn hm

/-- Lines that are joined come back, unless there is none. -/
theorem lines_unlines {ls : List String} (hls : ∀ l ∈ ls, lineEnd ∉ l.toList) (hne : ls ≠ []) :
    lines (unlines ls) = ls := by
  unfold lines unlines
  rw [String.toList_ofList, List.splitOn_intercalate, List.map_map]
  · have : String.ofList ∘ String.toList = id := by
      funext l
      exact String.ofList_toList
    rw [this, List.map_id]
  · intro m hm
    obtain ⟨l, hl, rfl⟩ := List.mem_map.mp hm
    exact hls l hl
  · simpa using hne

def lineStart : List String → Nat → Nat
  | l :: ls, i + 1 => l.utf8ByteSize + lineEnd.utf8Size + lineStart ls i
  | _, _ => 0

theorem lineStart_zero (ls : List String) : lineStart ls 0 = 0 := by
  cases ls <;> rfl

theorem lineStart_succ (l : String) (ls : List String) (i : Nat) :
    lineStart (l :: ls) (i + 1) = l.utf8ByteSize + lineEnd.utf8Size + lineStart ls i := rfl

theorem unlines_cons_cons (l m : String) (ls : List String) :
    unlines (l :: m :: ls) = l ++ "\n" ++ unlines (m :: ls) := by
  unfold unlines
  rw [List.map_cons, List.map_cons, List.intercalate_cons_cons, String.ofList_append, String.ofList_append,
    String.ofList_toList]
  rfl

/-- A line is the part of the text from its start on. -/
theorem unlines_eq_append : ∀ {ls : List String} {i : Nat} {l : String}, ls[i]? = some l →
    ∃ before after, unlines ls = before ++ l ++ after ∧ before.utf8ByteSize = lineStart ls i
  | [], _, _, h => by cases h
  | [m], 0, _, h => by
    cases h
    refine ⟨"", "", ?_, rfl⟩
    unfold unlines
    simp
  | m :: n :: ls, 0, _, h => by
    cases h
    refine ⟨"", "\n" ++ unlines (n :: ls), ?_, rfl⟩
    rw [unlines_cons_cons, String.empty_append, String.append_assoc]
  | [m], i + 1, _, h => by cases h
  | m :: n :: ls, i + 1, l, h => by
    obtain ⟨before, after, he, hs⟩ := unlines_eq_append (show (n :: ls)[i]? = some l from h)
    refine ⟨m ++ "\n" ++ before, after, ?_, ?_⟩
    · rw [unlines_cons_cons, he]
      simp only [String.append_assoc]
    · rw [String.utf8ByteSize_append, String.utf8ByteSize_append, hs, lineStart_succ]
      rfl

theorem utf8ByteSize_unlines : ∀ {ls : List String}, ls ≠ [] →
    (unlines ls).utf8ByteSize + lineEnd.utf8Size = lineStart ls ls.length
  | [], h => absurd rfl h
  | [m], _ => by
    unfold unlines
    rw [List.length_singleton, lineStart_succ, lineStart_zero]
    simp
  | m :: n :: ls, _ => by
    have := utf8ByteSize_unlines (List.cons_ne_nil n ls)
    rw [unlines_cons_cons, String.utf8ByteSize_append, String.utf8ByteSize_append, List.length_cons,
      lineStart_succ, ← this]
    have : "\n".utf8ByteSize = lineEnd.utf8Size := rfl
    omega

end Highlight.Text
