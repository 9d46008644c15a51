import Highlight.Proofs.CharRuns
import Highlight.Proofs.Fixtures
import Highlight.Proofs.Trimming

/-!
# Assertion lines

A line makes an assertion if it can be cut into blanks, two dashes, blanks, carets and a rest that
does not begin with a caret. Neither a dash nor a caret is blank, so that each run goes as far as
it can. That is where reading ends it, and there is only one cut. What the line says is read off
its parts, and a line that is put together from such parts says the same again.
-/

namespace Highlight.Fixture

open Text (takeWhile_run dropWhile_run run_unique)
open Unicode (isBlank)

theorem isBlank_head_dash (l : List Char) (c : Char) (hc : ('-' :: l).head? = some c) : isBlank c = false := by
  cases hc
  rfl

theorem caret_of_mem_replicate {n : Nat} (c : Char) (hc : c ∈ List.replicate n '^') : (c == '^') = true := by
  rw [List.eq_of_mem_replicate hc]
  rfl

/-! ## Cuts -/

def caretRun (carets : Nat) : String :=
  String.ofList (List.replicate carets '^')

structure Cut (line before between : String) (carets : Nat) (rest : String) : Prop where
  line_eq : line = before ++ "--" ++ between ++ caretRun carets ++ rest
  blank_before : ∀ c ∈ before.toList, isBlank c = true
  blank_between : ∀ c ∈ between.toList, isBlank c = true
  carets_pos : 0 < carets
  rest_head : rest.toList.head? ≠ some '^'

def columnsOf (before between : String) (carets : Nat) : Span :=
  let start := before.utf8ByteSize + 2 + between.utf8ByteSize
  ⟨start, start + carets⟩

namespace Cut

variable {line before before' between between' rest rest' : String} {carets carets' : Nat}

theorem toList_eq (h : Cut line before between carets rest) :
    line.toList = before.toList ++ ('-' :: '-' :: (between.toList ++ (List.replicate carets '^' ++ rest.toList))) := by
  rw [h.line_eq]
  simp [caretRun]

theorem carets_rest (h : Cut line before between carets rest) :
    ∃ n, carets = n + 1 ∧ List.replicate carets '^' ++ rest.toList = '^' :: (List.replicate n '^' ++ rest.toList) := by
  obtain ⟨n, rfl⟩ := Nat.exists_eq_succ_of_ne_zero (Nat.pos_iff_ne_zero.mp h.carets_pos)
  exact ⟨n, rfl, by simp [List.replicate_succ]⟩

theorem head_carets (h : Cut line before between carets rest) (c : Char)
    (hc : (List.replicate carets '^' ++ rest.toList).head? = some c) : isBlank c = false := by
  obtain ⟨n, _, hn⟩ := h.carets_rest
  rw [hn] at hc
  cases hc
  rfl

theorem head_rest (h : Cut line before between carets rest) (c : Char) (hc : rest.toList.head? = some c) :
    (c == '^') = false := by
  rw [beq_eq_false_iff_ne]
  rintro rfl
  exact h.rest_head hc

theorem unique (h : Cut line before between carets rest) (h' : Cut line before' between' carets' rest') :
    before = before' ∧ between = between' ∧ carets = carets' ∧ rest = rest' := by
  obtain ⟨hbefore, hafter⟩ := run_unique h.blank_before (isBlank_head_dash _) h'.blank_before (isBlank_head_dash _)
    (h.toList_eq.symm.trans h'.toList_eq)
  simp only [List.cons.injEq, true_and] at hafter
  obtain ⟨hbetween, hafter⟩ := run_unique h.blank_between h.head_carets h'.blank_between h'.head_carets hafter
  obtain ⟨hcarets, hrest⟩ := run_unique caret_of_mem_replicate h.head_rest caret_of_mem_replicate h'.head_rest hafter
  refine ⟨String.toList_inj.mp hbefore, String.toList_inj.mp hbetween, ?_, String.toList_inj.mp hrest⟩
  simpa using congrArg List.length hcarets

theorem stop_le (h : Cut line before between carets rest) : (columnsOf before between carets).stop ≤ line.utf8ByteSize := by
  have hcarets : (caretRun carets).utf8ByteSize = carets := by
    clear h
    unfold caretRun
    rw [Text.utf8ByteSize_ofList]
    induction carets with
    | zero => rfl
    | succ n ih =>
      rw [List.replicate_succ, Text.byteCount, ih]
      exact Nat.add_comm 1 n
  have hdashes : "--".utf8ByteSize = 2 := rfl
  rw [h.line_eq]
  simp only [String.utf8ByteSize_append, hcarets, hdashes, columnsOf]
  omega

end Cut

/-! ## Reading a line -/

variable {line before between rest : String} {carets : Nat}

theorem classify_of_cut (h : Cut line before between carets rest) :
    Line.classify line = .assertion (.ofScope (columnsOf before between carets) (Text.trim rest.toList)) := by
  have hbefore := takeWhile_run h.blank_before
    (isBlank_head_dash ('-' :: (between.toList ++ (List.replicate carets '^' ++ rest.toList))))
  have hstart := dropWhile_run h.blank_before
    (isBlank_head_dash ('-' :: (between.toList ++ (List.replicate carets '^' ++ rest.toList))))
  rw [← h.toList_eq] at hbefore hstart
  have hbetween := takeWhile_run h.blank_between h.head_carets
  have hcarets := dropWhile_run h.blank_between h.head_carets
  obtain ⟨n, rfl, hn⟩ := h.carets_rest
  rw [hn] at hstart hbetween hcarets
  unfold Line.classify Text.trimStart
  rw [hstart]
  simp only [hcarets, hbefore, hbetween, takeWhile_run caret_of_mem_replicate h.head_rest,
    dropWhile_run caret_of_mem_replicate h.head_rest, List.length_replicate, Text.byteCount_toList]
  rfl

theorem exists_cut_of_classify {marks : Marks} (h : Line.classify line = .assertion marks) :
    ∃ before between carets rest, Cut line before between carets rest := by
  unfold Line.classify at h
  split at h
  · rename_i rest hrest
    split at h
    · rename_i tail htail
      refine ⟨String.ofList (line.toList.takeWhile isBlank), String.ofList (rest.takeWhile isBlank),
        (tail.takeWhile (· == '^')).length + 1, String.ofList (tail.dropWhile (· == '^')), ?_, ?_, ?_, Nat.succ_pos _, ?_⟩
      · have hcarets : List.replicate (tail.takeWhile (· == '^')).length '^' = tail.takeWhile (· == '^') := by
          refine (List.eq_replicate_iff.mpr ⟨rfl, ?_⟩).symm
          intro c hc
          exact eq_of_beq (List.mem_takeWhile_imp (p := (· == '^')) hc)
        have hbefore := List.takeWhile_append_dropWhile (p := isBlank) (l := line.toList)
        have hbetween := List.takeWhile_append_dropWhile (p := isBlank) (l := rest)
        have hafter := List.takeWhile_append_dropWhile (p := (· == '^')) (l := tail)
        unfold Text.trimStart at hrest htail
        rw [hrest] at hbefore
        rw [htail] at hbetween
        apply String.toList_inj.mp
        calc line.toList
          _ = line.toList.takeWhile isBlank ++ '-' :: '-' :: (rest.takeWhile isBlank ++ '^' :: tail) := by
            rw [hbetween, hbefore]
          _ = line.toList.takeWhile isBlank ++ '-' :: '-' :: (rest.takeWhile isBlank ++
              '^' :: (tail.takeWhile (· == '^') ++ tail.dropWhile (· == '^'))) := by rw [hafter]
          _ = _ := by simp [caretRun, List.replicate_succ, hcarets]
      · intro c hc
        rw [String.toList_ofList] at hc
        exact List.mem_takeWhile_imp hc
      · intro c hc
        rw [String.toList_ofList] at hc
        exact List.mem_takeWhile_imp hc
      · intro hc
        rw [String.toList_ofList] at hc
        have := List.head?_dropWhile_not (· == '^') tail
        rw [hc] at this
        cases this
    · cases h
  · cases h

theorem classify_of_no_cut (h : ¬∃ before between carets rest, Cut line before between carets rest) :
    Line.classify line = .code line := by
  cases hc : Line.classify line with
  | code text => rw [Line.eq_of_classify_eq_code hc]
  | assertion marks => exact absurd (exists_cut_of_classify hc) h

/-! ## What a line says -/

theorem ofScope_of_no_mark (columns : Span) {scope : List Char} (h : scope.head? ≠ some '!') :
    Marks.ofScope columns scope = ⟨columns, String.ofList scope, false⟩ := by
  unfold Marks.ofScope
  split
  · exact absurd rfl h
  · rfl

/-- What is said by a line with this text after its carets. -/
structure Says (marks : Marks) (rest : String) : Prop where
  negated_iff : marks.negated = true ↔ ∃ s, Text.trimmed rest = "!" ++ s
  negated_scope : ∀ s, Text.trimmed rest = "!" ++ s → marks.scope = Text.trimmed s
  scope : (∀ s, Text.trimmed rest ≠ "!" ++ s) → marks.scope = Text.trimmed rest

theorem says_ofScope (columns : Span) (rest : String) : Says (.ofScope columns (Text.trim rest.toList)) rest := by
  have hmark (s : String) : ("!" ++ s).toList = '!' :: s.toList := by simp
  by_cases h : ∃ s, Text.trimmed rest = "!" ++ s
  · obtain ⟨s, hs⟩ := h
    have htrim : Text.trim rest.toList = '!' :: s.toList := by
      rw [← hmark, ← hs, Text.trimmed, String.toList_ofList]
    rw [htrim]
    refine ⟨⟨fun _ => ⟨s, hs⟩, fun _ => rfl⟩, ?_, fun hnone => absurd hs (hnone s)⟩
    intro s' hs'
    obtain rfl : s = s' := (String.append_right_inj "!").mp (hs.symm.trans hs')
    rfl
  · have hhead : (Text.trim rest.toList).head? ≠ some '!' := by
      intro hhead
      apply h
      obtain ⟨s, hs⟩ := List.head?_eq_some_iff.mp hhead
      refine ⟨String.ofList s, String.toList_inj.mp ?_⟩
      rw [hmark, Text.trimmed, String.toList_ofList, String.toList_ofList, hs]
    rw [ofScope_of_no_mark columns hhead]
    refine ⟨⟨?_, fun hsome => absurd hsome h⟩, fun s hs => absurd ⟨s, hs⟩ h, fun _ => rfl⟩
    intro hnegated
    cases hnegated

/-! ## Writing a line -/

def written (before between : String) (carets : Nat) (scope : String) (negated : Bool) : String :=
  before ++ "--" ++ between ++ caretRun carets ++ (" " ++ (if negated then "!" else "") ++ scope)

theorem cut_written (hbefore : ∀ c ∈ before.toList, isBlank c = true) (hbetween : ∀ c ∈ between.toList, isBlank c = true)
    (hcarets : 0 < carets) (scope : String) (negated : Bool) :
    Cut (written before between carets scope negated) before between carets
      (" " ++ (if negated then "!" else "") ++ scope) :=
  ⟨rfl, hbefore, hbetween, hcarets, by simp⟩

theorem classify_written (hbefore : ∀ c ∈ before.toList, isBlank c = true)
    (hbetween : ∀ c ∈ between.toList, isBlank c = true) (hcarets : 0 < carets) {scope : String}
    (htrimmed : Text.trimmed scope = scope) (hmark : ∀ s, scope ≠ "!" ++ s) (negated : Bool) :
    Line.classify (written before between carets scope negated) =
      .assertion ⟨columnsOf before between carets, scope, negated⟩ := by
  rw [classify_of_cut (cut_written hbefore hbetween hcarets scope negated)]
  have htrim : Text.trim scope.toList = scope.toList := by
    conv_rhs => rw [← htrimmed, Text.trimmed, String.toList_ofList]
  cases negated with
  | false =>
    have hrest : (" " ++ (if false = true then "!" else "") ++ scope).toList = ' ' :: scope.toList := by simp
    have hhead : scope.toList.head? ≠ some '!' := by
      intro hhead
      obtain ⟨s, hs⟩ := List.head?_eq_some_iff.mp hhead
      apply hmark (String.ofList s)
      rw [← String.toList_inj, hs]
      simp
    rw [hrest, Text.trim_cons_of_blank rfl, htrim, ofScope_of_no_mark _ hhead, String.ofList_toList]
  | true =>
    have hrest : (" " ++ (if true = true then "!" else "") ++ scope).toList = ' ' :: '!' :: scope.toList := by simp
    rw [hrest, Text.trim_cons_of_blank rfl, Text.trim_cons_of_not_blank rfl htrim]
    show Line.assertion ⟨_, String.ofList (Text.trim scope.toList), true⟩ = _
    rw [htrim, String.ofList_toList]

/-- A line makes an assertion just if it can be cut, which it can in one way; what it says is read
off the cut. All that can be said is read back from the line that is written for it. -/
theorem classify_cuts :
    (∀ line, (∃ marks, Line.classify line = .assertion marks) ↔
      ∃ before between carets rest, Cut line before between carets rest) ∧
    (∀ line before before' between between' carets carets' rest rest',
      Cut line before between carets rest → Cut line before' between' carets' rest' →
      before = before' ∧ between = between' ∧ carets = carets' ∧ rest = rest') ∧
    (∀ line before between carets rest, Cut line before between carets rest → ∃ marks,
      Line.classify line = .assertion marks ∧
      marks.columns.start = before.utf8ByteSize + 2 + between.utf8ByteSize ∧
      marks.columns.stop = before.utf8ByteSize + 2 + between.utf8ByteSize + carets ∧
      marks.columns.start < marks.columns.stop ∧ marks.columns.stop ≤ line.utf8ByteSize ∧ Says marks rest) ∧
    (∀ line, (¬∃ before between carets rest, Cut line before between carets rest) → Line.classify line = .code line) ∧
    ∀ before between carets scope negated, (∀ c ∈ before.toList, isBlank c = true) →
      (∀ c ∈ between.toList, isBlank c = true) → 0 < carets → Text.trimmed scope = scope → (∀ s, scope ≠ "!" ++ s) →
      Line.classify (written before between carets scope negated) =
        .assertion ⟨⟨before.utf8ByteSize + 2 + between.utf8ByteSize,
          before.utf8ByteSize + 2 + between.utf8ByteSize + carets⟩, scope, negated⟩ := by
  refine ⟨?_, ?_, ?_, fun line => classify_of_no_cut, ?_⟩
  · intro line
    constructor
    · rintro ⟨marks, h⟩
      exact exists_cut_of_classify h
    · rintro ⟨before, between, carets, rest, h⟩
      exact ⟨_, classify_of_cut h⟩
  · intro line before before' between between' carets carets' rest rest' h h'
    exact h.unique h'
  · intro line before between carets rest h
    have hclassify := classify_of_cut h
    have hcolumns := Marks.columns_ofScope (columnsOf before between carets) (Text.trim rest.toList)
    refine ⟨_, hclassify, ?_, ?_, Line.lt_of_classify_eq_assertion hclassify, ?_, says_ofScope _ rest⟩
    · rw [hcolumns]
      rfl
    · rw [hcolumns]
      rfl
    · rw [hcolumns]
      exact h.stop_le
  · intro before between carets scope negated hbefore hbetween hcarets htrimmed hmark
    exact classify_written hbefore hbetween hcarets htrimmed hmark negated

-- columns count bytes, of which the blank at the start has three
example : Line.classify "\u2003-- ^^ ! string.quoted !\r" = .assertion ⟨⟨6, 8⟩, "string.quoted !", true⟩ := by
  rfl

end Highlight.Fixture
