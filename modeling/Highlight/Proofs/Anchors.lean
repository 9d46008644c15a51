import Highlight.Proofs.Insertion

/-!
# What a fixture keeps of its source

The code lines and the assertions are the lines of the source, split in two. Each assertion knows
the code line above it by its index, so the order in which they stood can be told again: after
each code line come the assertions about it. All that is lost are assertions above the first
code line. The code itself, read as a fixture, has only code lines.
-/

namespace Highlight.Fixture

def Line.isCode : Line → Bool
  | .code _ => true
  | .assertion _ => false

theorem Line.isCode_classify {text : String} : (Line.classify text).isCode = true ↔ Line.classify text = .code text := by
  cases h : Line.classify text with
  | code code => simp [isCode, Line.eq_of_classify_eq_code h]
  | assertion marks => simp [isCode]

/-! ## Code lines -/

theorem codeOf_classify (ls : List String) :
    codeOf (ls.map Line.classify) = ls.filter fun l => Line.classify l = .code l := by
  induction ls with
  | nil => rfl
  | cons l ls ih =>
    rw [List.map_cons]
    cases h : Line.classify l with
    | code code =>
      obtain rfl := Line.eq_of_classify_eq_code h
      rw [List.filter_cons_of_pos (by simp [h]), ← ih]
      rfl
    | assertion marks =>
      rw [List.filter_cons_of_neg (by simp [h]), ← ih]
      rfl

/-! ## Putting lines back -/

def about (as : List Assertion) (index : Nat) : List Line :=
  (as.filter fun a => a.codeLine = index).map fun a => .assertion a.toMarks

def weave (as : List Assertion) : (index : Nat) → List String → List Line
  | _, [] => []
  | index, code :: rest => .code code :: (about as index ++ weave as (index + 1) rest)

def restore (f : Fixture) (dropped : List Line) : List Line :=
  dropped ++ weave f.assertions 0 f.codeLines

theorem le_codeLine_of_mem_anchor : ∀ {ls : List Line} {number above : Nat} {a : Assertion}, a ∈ anchor number above ls →
    above ≤ a.codeLine + 1
  | [], _, _, _, h => by cases h
  | .code text :: ls, number, above, a, h => by
    rw [anchor] at h
    have := le_codeLine_of_mem_anchor h
    omega
  | .assertion marks :: ls, number, 0, a, h => Nat.zero_le _
  | .assertion marks :: ls, number, above + 1, a, h => by
    rw [anchor] at h
    rcases List.mem_cons.mp h with rfl | h
    · exact Nat.le_refl _
    · exact le_codeLine_of_mem_anchor h

theorem weave_cons_of_lt {as : List Assertion} {a : Assertion} {index : Nat} (ha : a.codeLine < index)
    (codes : List String) : weave (a :: as) index codes = weave as index codes := by
  induction codes generalizing index with
  | nil => rfl
  | cons code codes ih =>
    have hne : a.codeLine ≠ index := by omega
    rw [weave, weave, ih (by omega)]
    simp [about, hne]

theorem weave_anchor : ∀ (ls : List Line) (number above : Nat),
    about (anchor number (above + 1) ls) above ++ weave (anchor number (above + 1) ls) (above + 1) (codeOf ls) = ls
  | [], _, _ => rfl
  | .code text :: ls, number, above => by
    have ih := weave_anchor ls (number + 1) (above + 1)
    have hnone : about (anchor (number + 1) (above + 2) ls) above = [] := by
      simp only [about, List.map_eq_nil_iff, List.filter_eq_nil_iff]
      intro a ha
      have := le_codeLine_of_mem_anchor ha
      simp only [decide_eq_true_eq]
      omega
    have hcode : codeOf (.code text :: ls) = text :: codeOf ls := rfl
    rw [anchor, hnone, hcode, weave, ih]
    rfl
  | .assertion marks :: ls, number, above => by
    have ih := weave_anchor ls (number + 1) above
    rw [anchor, codeOf_cons_assertion, weave_cons_of_lt (Nat.lt_succ_self above)]
    have hfirst (as : List Assertion) :
        about (⟨marks, number, above⟩ :: as) above = .assertion marks :: about as above := by
      simp [about]
    rw [hfirst, List.cons_append, ih]

theorem restore_anchor (ls : List Line) (number : Nat) :
    restore ⟨codeOf ls, anchor number 0 ls⟩ (ls.takeWhile fun l => !l.isCode) = ls := by
  induction ls generalizing number with
  | nil => rfl
  | cons l ls ih =>
    cases l with
    | code text => exact congrArg (Line.code text :: ·) (weave_anchor ls (number + 1) 0)
    | assertion marks => exact congrArg (Line.assertion marks :: ·) (ih (number + 1))

/-! ## The nearest code line -/

theorem exists_nearest {ls : List String} (h : codeOf (ls.map Line.classify) ≠ []) :
    ∃ before code after, ls = before ++ code :: after ∧ Line.classify code = .code code ∧
      ∀ l ∈ after, Line.classify l ≠ .code l := by
  induction ls using List.reverseRecOn with
  | nil => exact absurd rfl h
  | append_singleton ls l ih =>
    by_cases hl : Line.classify l = .code l
    · exact ⟨ls, l, [], rfl, hl, by simp⟩
    · have hls : codeOf (ls.map Line.classify) ≠ [] := by
        rw [codeOf_classify, List.filter_append, List.filter_cons_of_neg (by simp [hl])] at h
        rw [codeOf_classify]
        simpa using h
      obtain ⟨before, code, after, rfl, hcode, hafter⟩ := ih hls
      refine ⟨before, code, after ++ [l], by simp, hcode, ?_⟩
      intro m hm
      rcases List.mem_append.mp hm with hm | hm
      · exact hafter m hm
      · rwa [List.mem_singleton.mp hm]

def anchorable (ls : List String) : List Nat :=
  (List.range ls.length).filter fun i =>
    (ls[i]?.any fun l => !(Line.classify l).isCode) && (ls.take i).any fun l => (Line.classify l).isCode

/-- The assertion is that of the line at `i`, about the nearest code line above it. -/
structure Anchored (ls codeLines : List String) (i : Nat) (a : Assertion) : Prop where
  fileLine : a.fileLine = i + 1
  marks : ∃ line, ls[i]? = some line ∧ Line.classify line = .assertion a.toMarks
  nearest : ∃ j code, j < i ∧ ls[j]? = some code ∧ Line.classify code = .code code ∧
    (∀ x line, j < x → x < i → ls[x]? = some line → Line.classify line ≠ .code line) ∧
    a.codeLine = ((ls.take j).filter fun l => Line.classify l = .code l).length ∧ codeLines[a.codeLine]? = some code

theorem Anchored.append {ls codeLines : List String} {i : Nat} {a : Assertion} (h : Anchored ls codeLines i a)
    (l : String) (codes : List String) : Anchored (ls ++ [l]) (codeLines ++ codes) i a := by
  obtain ⟨hfile, ⟨line, hline, hmarks⟩, j, code, hj, hcode, hclassify, hbetween, hcount, hget⟩ := h
  have hi := (List.getElem?_eq_some_iff.mp hline).1
  refine ⟨hfile, ⟨line, ?_, hmarks⟩, j, code, hj, ?_, hclassify, ?_, ?_, ?_⟩
  · rwa [List.getElem?_append_left hi]
  · rwa [List.getElem?_append_left (Nat.lt_trans hj hi)]
  · intro x m hx hxi hm
    rw [List.getElem?_append_left (Nat.lt_trans hxi hi)] at hm
    exact hbetween x m hx hxi hm
  · rwa [List.take_append_of_le_length (Nat.le_of_lt (Nat.lt_trans hj hi))]
  · rwa [List.getElem?_append_left (List.getElem?_eq_some_iff.mp hget).1]

theorem anchorable_snoc (ls : List String) (l : String) :
    anchorable (ls ++ [l]) = anchorable ls ++
      if !(Line.classify l).isCode && ls.any fun m => (Line.classify m).isCode then [ls.length] else [] := by
  unfold anchorable
  rw [List.length_append, List.length_singleton, List.range_succ, List.filter_append]
  congr 1
  · apply List.filter_congr
    intro i hi
    have hi := List.mem_range.mp hi
    rw [List.getElem?_append_left hi, List.take_append_of_le_length (Nat.le_of_lt hi)]
  · simp [List.filter_singleton]

theorem anchored_last {ls : List String} {l : String} {marks : Marks} (hl : Line.classify l = .assertion marks)
    (hcode : codeOf (ls.map Line.classify) ≠ []) :
    Anchored (ls ++ [l]) (codeOf (ls.map Line.classify)) ls.length
      ⟨marks, ls.length + 1, (codeOf (ls.map Line.classify)).length - 1⟩ := by
  obtain ⟨before, code, after, rfl, hclassify, hafter⟩ := exists_nearest hcode
  have hnone : (after.filter fun m => Line.classify m = .code m) = [] :=
    List.filter_eq_nil_iff.mpr (by simpa using hafter)
  have hcodes : codeOf ((before ++ code :: after).map Line.classify) =
      (before.filter fun m => Line.classify m = .code m) ++ [code] := by
    rw [codeOf_classify, List.filter_append, List.filter_cons_of_pos (by simp [hclassify]), hnone]
  rw [hcodes]
  refine ⟨rfl, ⟨l, by simp, hl⟩, before.length, code, by simp, by simp, hclassify, ?_, by simp, by simp⟩
  intro x m hx hxi hm
  rw [List.getElem?_append_left hxi, List.getElem?_append_right (Nat.le_of_lt hx)] at hm
  obtain ⟨n, hn⟩ : ∃ n, x - before.length = n + 1 := ⟨x - before.length - 1, by omega⟩
  rw [hn, List.getElem?_cons_succ] at hm
  exact hafter m (List.mem_of_getElem? hm)

/-- By induction from the last line on: what stands below a line changes nothing about it. -/
theorem forall₂_anchor (ls : List String) :
    List.Forall₂ (Anchored ls (codeOf (ls.map Line.classify))) (anchorable ls) (anchor 1 0 (ls.map Line.classify)) := by
  induction ls using List.reverseRecOn with
  | nil => exact .nil
  | append_singleton ls l ih =>
    rw [anchorable_snoc, List.map_append, anchor_append, codeOf_append, List.length_map, Nat.zero_add, Nat.add_comm 1]
    refine List.rel_append (ih.imp fun _ _ h => h.append l _) ?_
    cases hl : Line.classify l with
    | code code => simp [Line.isCode, hl, anchor]
    | assertion marks =>
      rw [List.map_singleton, hl, anchor_singleton]
      by_cases hcode : codeOf (ls.map Line.classify) = []
      · have hnone : ¬∃ m ∈ ls, Line.classify m = .code m := fun hsome => codeOf_ne_nil_iff.mpr hsome hcode
        simp only [not_exists, not_and] at hnone
        have hany : (ls.any fun m => (Line.classify m).isCode) = false := by
          rw [List.any_eq_false]
          intro m hm
          rw [Line.isCode_classify]
          exact hnone m hm
        simp [hcode, hany]
      · obtain ⟨m, hm, hclassify⟩ := codeOf_ne_nil_iff.mp hcode
        have hany : (ls.any fun m => (Line.classify m).isCode) = true :=
          List.any_eq_true.mpr ⟨m, hm, Line.isCode_classify.mpr hclassify⟩
        have hlength : (codeOf (ls.map Line.classify)).length ≠ 0 := fun h => hcode (List.length_eq_zero_iff.mp h)
        have hcodes : codeOf (ls.map Line.classify) ++ codeOf [.assertion marks] = codeOf (ls.map Line.classify) :=
          List.append_nil _
        rw [if_neg hlength, hany, hcodes]
        exact .cons (anchored_last hl hcode) .nil

/-! ## Fixtures -/

theorem parse_of_code {source : String} (h : ∀ l ∈ Text.lines source, Line.classify l = .code l) :
    parse source = ⟨Text.lines source, []⟩ := by
  have hcodes : codeOf ((Text.lines source).map Line.classify) = Text.lines source := by
    rw [codeOf_classify, List.filter_eq_self]
    intro l hl
    exact decide_eq_true (h l hl)
  have hnone : anchor 1 0 ((Text.lines source).map Line.classify) = [] := by
    rw [List.eq_nil_iff_forall_not_mem]
    intro a ha
    obtain ⟨l, hl, hmarks⟩ := List.mem_map.mp (of_mem_anchor ha).2
    rw [h l hl] at hmarks
    cases hmarks
  simp only [parse, hcodes, hnone]

theorem parse_code (source : String) : (parse (parse source).code).assertions = [] ∧
    (parse (parse source).code).code = (parse source).code := by
  have hcode : ∀ l ∈ Text.lines (parse source).code, Line.classify l = .code l := by
    intro l hl
    by_cases hne : (parse source).codeLines = []
    · -- a text without characters has one line
      have hempty : (parse source).code = "" := by
        unfold code
        rw [hne]
        rfl
      have hlines : Text.lines "" = [""] := rfl
      rw [hempty, hlines, List.mem_singleton] at hl
      rw [hl]
      rfl
    · rw [lines_code hne] at hl
      have hl : l ∈ codeOf ((Text.lines source).map Line.classify) := hl
      rw [codeOf_classify] at hl
      exact of_decide_eq_true (List.mem_filter.mp hl).2
  have hunlines (ls : List String) : (⟨ls, []⟩ : Fixture).code = Text.unlines ls := rfl
  rw [parse_of_code hcode, hunlines, Text.unlines_lines]
  exact ⟨rfl, rfl⟩

/-- The code lines are those of the source, and the assertions are those of its other lines that
have code above them, about the nearest code line. Together with the lines above all code they
tell the order of the lines. What is left is code only. -/
theorem parse_splits (source : String) :
    (parse source).codeLines = ((Text.lines source).filter fun l => Line.classify l = .code l) ∧
    List.Forall₂ (Anchored (Text.lines source) (parse source).codeLines) (anchorable (Text.lines source))
      (parse source).assertions ∧
    (parse source).restore (((Text.lines source).map Line.classify).takeWhile fun l => !l.isCode) =
      (Text.lines source).map Line.classify ∧
    (parse (parse source).code).assertions = [] ∧ (parse (parse source).code).code = (parse source).code :=
  ⟨codeOf_classify _, forall₂_anchor _, restore_anchor _ 1, parse_code source⟩

end Highlight.Fixture
