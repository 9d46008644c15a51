import Highlight.Proofs.Judgement

/-!
# Assertion lines are invisible

A line that is put into a fixture and makes an assertion leaves the code as it is, and with it
the tokens and the starts of the code lines. The numbering and the count of code lines above go
through a fixture line by line, so a cut of its lines cuts its assertions: those above the new
line stay as they are, and those below it move down by one line.
-/

namespace Highlight

def Assertion.moved (a : Assertion) : Assertion :=
  { a with fileLine := a.fileLine + 1 }

namespace Fixture

theorem codeOf_append (ls ms : List Line) : codeOf (ls ++ ms) = codeOf ls ++ codeOf ms :=
  List.filterMap_append

theorem codeOf_cons_assertion (marks : Marks) (ls : List Line) : codeOf (.assertion marks :: ls) = codeOf ls := rfl

/-- Some line is code just if code lines are counted. -/
theorem codeOf_ne_nil_iff {ls : List String} :
    codeOf (ls.map Line.classify) ≠ [] ↔ ∃ l ∈ ls, Line.classify l = .code l := by
  constructor
  · intro hne
    obtain ⟨code, hcode⟩ := List.exists_mem_of_ne_nil _ hne
    obtain ⟨line, hline, h⟩ := List.mem_filterMap.mp hcode
    obtain ⟨l, hl, rfl⟩ := List.mem_map.mp hline
    split at h
    · rename_i text htext
      exact ⟨l, hl, by rw [htext, Line.eq_of_classify_eq_code htext]⟩
    · cases h
  · rintro ⟨l, hl, hcode⟩
    exact List.ne_nil_of_mem (List.mem_filterMap.mpr ⟨_, List.mem_map_of_mem hl, by rw [hcode]⟩)

/-! ## Anchors -/

theorem anchor_append : ∀ (ls ms : List Line) (number above : Nat),
    anchor number above (ls ++ ms) =
      anchor number above ls ++ anchor (number + ls.length) (above + (codeOf ls).length) ms
  | [], ms, number, above => rfl
  | .code text :: ls, ms, number, above => by
    rw [List.cons_append, anchor, anchor, anchor_append ls ms, length_codeOf_cons_code, List.length_cons]
    congr 2
    · omega
    · omega
  | .assertion marks :: ls, ms, number, 0 => by
    rw [List.cons_append, anchor, anchor, anchor_append ls ms, codeOf_cons_assertion, List.length_cons]
    congr 2
    omega
  | .assertion marks :: ls, ms, number, above + 1 => by
    rw [List.cons_append, anchor, anchor, anchor_append ls ms, codeOf_cons_assertion, List.length_cons, List.cons_append]
    congr 3
    omega

/-- Where the first line has the next number, all assertions move down. -/
theorem anchor_succ : ∀ (ls : List Line) (number above : Nat),
    anchor (number + 1) above ls = (anchor number above ls).map Assertion.moved
  | [], _, _ => rfl
  | .code text :: ls, number, above => by
    rw [anchor, anchor, anchor_succ ls]
  | .assertion marks :: ls, number, 0 => by
    rw [anchor, anchor, anchor_succ ls]
  | .assertion marks :: ls, number, above + 1 => by
    rw [anchor, anchor, anchor_succ ls]
    rfl

theorem fileLine_of_mem_anchor : ∀ {ls : List Line} {number above : Nat} {a : Assertion}, a ∈ anchor number above ls →
    number ≤ a.fileLine ∧ a.fileLine < number + ls.length
  | [], _, _, _, h => by cases h
  | .code text :: ls, number, above, a, h => by
    rw [anchor] at h
    obtain ⟨h1, h2⟩ := fileLine_of_mem_anchor h
    rw [List.length_cons]
    omega
  | .assertion marks :: ls, number, 0, a, h => by
    rw [anchor] at h
    obtain ⟨h1, h2⟩ := fileLine_of_mem_anchor h
    rw [List.length_cons]
    omega
  | .assertion marks :: ls, number, above + 1, a, h => by
    rw [anchor] at h
    rw [List.length_cons]
    rcases List.mem_cons.mp h with rfl | h
    · exact ⟨Nat.le_refl _, by simp only; omega⟩
    · obtain ⟨h1, h2⟩ := fileLine_of_mem_anchor h
      omega

/-! ## A line between others -/

variable {source m : String} {before after : List String} {marks : Marks}

theorem lines_insert (hs : Text.lines source = before ++ after) (hm : Text.lineEnd ∉ m.toList) :
    Text.lines (Text.unlines (before ++ m :: after)) = before ++ m :: after := by
  refine Text.lines_unlines (fun l hl => ?_) (by simp)
  have hold (hl : l ∈ before ++ after) : Text.lineEnd ∉ l.toList := Text.not_mem_of_mem_lines (hs ▸ hl)
  rcases List.mem_append.mp hl with hl | hl
  · exact hold (List.mem_append_left _ hl)
  · rcases List.mem_cons.mp hl with rfl | hl
    · exact hm
    · exact hold (List.mem_append_right _ hl)

theorem codeLines_insert (hs : Text.lines source = before ++ after) (hm : Text.lineEnd ∉ m.toList)
    (hc : Line.classify m = .assertion marks) :
    (parse (Text.unlines (before ++ m :: after))).codeLines = (parse source).codeLines := by
  show codeOf ((Text.lines _).map Line.classify) = codeOf ((Text.lines _).map Line.classify)
  rw [lines_insert hs hm, hs, List.map_append, List.map_append, codeOf_append, codeOf_append, List.map_cons, hc,
    codeOf_cons_assertion]

/-- What the lines of a cut say of the lines above it, and those below. -/
theorem assertions_of_cut (hs : Text.lines source = before ++ after) :
    (parse source).assertions = anchor 1 0 (before.map Line.classify) ++
      anchor (before.length + 1) (codeOf (before.map Line.classify)).length (after.map Line.classify) := by
  show anchor 1 0 ((Text.lines _).map Line.classify) = _
  rw [hs, List.map_append, anchor_append, List.length_map, Nat.zero_add, Nat.add_comm 1]

theorem assertions_insert (hs : Text.lines source = before ++ after) (hm : Text.lineEnd ∉ m.toList)
    (hc : Line.classify m = .assertion marks) :
    (parse (Text.unlines (before ++ m :: after))).assertions = anchor 1 0 (before.map Line.classify) ++
      (anchor (before.length + 1) (codeOf (before.map Line.classify)).length [.assertion marks] ++
        (anchor (before.length + 1) (codeOf (before.map Line.classify)).length (after.map Line.classify)).map
          Assertion.moved) := by
  rw [assertions_of_cut (lines_insert hs hm), List.map_cons, hc, ← List.singleton_append, anchor_append, ← anchor_succ,
    codeOf_cons_assertion]
  rfl

/-- An assertion line has an assertion just if there is code above it. -/
theorem anchor_singleton (marks : Marks) (number above : Nat) :
    anchor number above [.assertion marks] = if above = 0 then [] else [⟨marks, number, above - 1⟩] := by
  cases above with
  | zero => rfl
  | succ above => rfl

end Fixture

namespace Check

def Result.of (path : String) (t : TokenizedText) (codeLines : List String) (a : Assertion) : Result :=
  ⟨path, a, Check.outcome a t (.ofLines codeLines)⟩

def Result.moved (r : Result) : Result :=
  { r with assertion := r.assertion.moved }

/-- The line of an assertion does not decide its outcome. -/
theorem Result.map_moved_of (path : String) (t : TokenizedText) (codeLines : List String) (as : List Assertion) :
    (as.map (Result.of path t codeLines)).map Result.moved = (as.map Assertion.moved).map (Result.of path t codeLines) := by
  rw [List.map_map, List.map_map]
  rfl

theorem checkSource_eq (h : Highlighter) (path source : String) :
    checkSource h none path source = (h.explain path (Fixture.parse source).code).map fun t =>
      .ofResults path ((Fixture.parse source).assertions.map (Result.of path t (Fixture.parse source).codeLines)) := by
  rw [checkSource_eq_map, filter_selects_none]
  rfl

/-- A line that makes an assertion has no effect but its own result, and that the results below
it are one line further down. -/
theorem checkSource_insert (h : Highlighter) (path source m : String) (before after : List String)
    (marks : Fixture.Marks) (hs : Text.lines source = before ++ after) (hm : Text.lineEnd ∉ m.toList)
    (hc : Fixture.Line.classify m = .assertion marks) :
    (Fixture.parse (Text.unlines (before ++ m :: after))).code = (Fixture.parse source).code ∧
    (∀ e, checkSource h none path (Text.unlines (before ++ m :: after)) = .error e ↔
      checkSource h none path source = .error e) ∧
    ∀ s, checkSource h none path source = .ok s → ∃ t above own below,
      h.tokenize (Fixture.parse source).code true = .ok t ∧
      s.results = above ++ below ∧
      (∀ r ∈ above, r.assertion.fileLine ≤ before.length) ∧
      (∀ r ∈ below, before.length < r.assertion.fileLine) ∧
      ((∃ l ∈ before, Fixture.Line.classify l = .code l) → own = [.of path t (Fixture.parse source).codeLines
        ⟨marks, before.length + 1, (Fixture.codeOf (before.map Fixture.Line.classify)).length - 1⟩]) ∧
      ((∀ l ∈ before, Fixture.Line.classify l ≠ .code l) → own = []) ∧
      checkSource h none path (Text.unlines (before ++ m :: after)) =
        .ok (.ofResults path (above ++ own ++ below.map Result.moved)) := by
  have hlines := Fixture.codeLines_insert hs hm hc
  have hcode : (Fixture.parse (Text.unlines (before ++ m :: after))).code = (Fixture.parse source).code := by
    unfold Fixture.code
    rw [hlines]
  refine ⟨hcode, ?_, ?_⟩
  · intro e
    rw [checkSource_eq, checkSource_eq, Results.map_eq_error, Results.map_eq_error, hcode]
  · intro s hsource
    rw [checkSource_eq] at hsource
    obtain ⟨t, ht, rfl⟩ := Results.map_eq_ok.mp hsource
    let result := Result.of path t (Fixture.parse source).codeLines
    let count := (Fixture.codeOf (before.map Fixture.Line.classify)).length
    refine ⟨t, (Fixture.anchor 1 0 (before.map Fixture.Line.classify)).map result,
      (Fixture.anchor (before.length + 1) count [.assertion marks]).map result,
      (Fixture.anchor (before.length + 1) count (after.map Fixture.Line.classify)).map result,
      Results.mapError_eq_ok.mp ht, ?_, ?_, ?_, ?_, ?_, ?_⟩
    · rw [results_ofResults, Fixture.assertions_of_cut hs, List.map_append]
    · intro r hr
      obtain ⟨a, ha, rfl⟩ := List.mem_map.mp hr
      have hlt := (Fixture.fileLine_of_mem_anchor ha).2
      rw [List.length_map, Nat.add_comm] at hlt
      exact Nat.le_of_lt_succ hlt
    · intro r hr
      obtain ⟨a, ha, rfl⟩ := List.mem_map.mp hr
      exact (Fixture.fileLine_of_mem_anchor ha).1
    · intro hsome
      have hcount : count ≠ 0 := fun h0 => Fixture.codeOf_ne_nil_iff.mpr hsome (List.length_eq_zero_iff.mp h0)
      rw [Fixture.anchor_singleton, if_neg hcount]
      rfl
    · intro hnone
      have hcount : count = 0 := by
        refine List.length_eq_zero_iff.mpr (Classical.not_not.mp fun hne => ?_)
        obtain ⟨l, hl, hcode⟩ := Fixture.codeOf_ne_nil_iff.mp hne
        exact hnone l hl hcode
      rw [Fixture.anchor_singleton, if_pos hcount]
      rfl
    · rw [checkSource_eq, hcode, ht, hlines, Fixture.assertions_insert hs hm hc, Result.map_moved_of, ← List.append_assoc,
        ← List.map_append, ← List.map_append]
      rfl

end Check

/-- A negated assertion between the lines of a fixture. -/
theorem checkSource_insert_brackets :
    (Fixture.parse "ab(\n--^ !round\n--^ round\n)b").code = "ab(\n)b" ∧
    ∃ t above own below, Brackets.highlighter.tokenize "ab(\n)b" true = .ok t ∧
      [(⟨"f", Brackets.assertion, .passed⟩ : Check.Result)] = above ++ below ∧
      (∀ r ∈ above, r.assertion.fileLine ≤ 1) ∧ (∀ r ∈ below, 1 < r.assertion.fileLine) ∧
      own = [.of "f" t ["ab(", ")b"] ⟨⟨⟨2, 3⟩, "round", true⟩, 2, 0⟩] ∧
      Check.checkSource Brackets.highlighter none "f" "ab(\n--^ !round\n--^ round\n)b" =
        .ok (.ofResults "f" (above ++ own ++ below.map Check.Result.moved)) := by
  have hsource : Text.lines "ab(\n--^ round\n)b" = ["ab("] ++ ["--^ round", ")b"] := by decide
  have hline : Fixture.Line.classify "--^ !round" = .assertion ⟨⟨2, 3⟩, "round", true⟩ := by decide
  have hjoin : Text.unlines (["ab("] ++ "--^ !round" :: ["--^ round", ")b"]) = "ab(\n--^ !round\n--^ round\n)b" := by
    decide
  have hcode : Fixture.code ⟨["ab(", ")b"], [Brackets.assertion]⟩ = "ab(\n)b" := by decide
  obtain ⟨hkept, _, hresults⟩ := Check.checkSource_insert Brackets.highlighter "f" "ab(\n--^ round\n)b" "--^ !round"
    ["ab("] ["--^ round", ")b"] ⟨⟨2, 3⟩, "round", true⟩ hsource (by decide) hline
  obtain ⟨t, above, own, below, h0, h1, h2, h3, h4, _, h5⟩ := hresults _ Brackets.checkSource_fixture
  rw [hjoin] at hkept h5
  rw [Brackets.parse_fixture] at hkept h0 h4
  rw [hcode] at hkept h0
  exact ⟨hkept, t, above, own, below, h0, h1, h2, h3, h4 ⟨"ab(", by simp, by decide⟩, h5⟩

end Highlight
