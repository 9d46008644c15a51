import Highlight.Check.Run
import Highlight.Proofs.Carets
import Highlight.Proofs.Fixtures
import Highlight.Proofs.Lossless

/-!
# What an assertion means

An assertion passes just if, for some byte of the code line under its carets, the token
that covers the byte has the scope that is named or one below it; or, where it is
negated, for none. What the message of a failure lists are the scopes of these bytes.
-/

namespace Highlight

open Check (Outcome FileSummary Result mismatch? outcome checkSource)

namespace Assertion

/-- Some byte of the line under the carets has a scope whose segments begin with those of
the scope that is named. -/
def Present (a : Assertion) (line : String) (tokens : List Token) : Prop :=
  ∃ b, a.columns.start ≤ b ∧ b < min a.columns.stop line.utf8ByteSize ∧
    ∃ scope ∈ Token.scopesAt tokens b, Scope.segments a.scope <+: Scope.segments scope

def bytes (a : Assertion) (line : String) : List Nat :=
  (List.range line.utf8ByteSize).filter fun b => decide (a.columns.start ≤ b ∧ b < a.columns.stop)

/-- The scopes of the bytes under the carets, once each, in the order in which they first occur. -/
def scopesUnder (a : Assertion) (line : String) (tokens : List Token) : List String :=
  ((a.bytes line).flatMap (Token.scopesAt tokens)).eraseDups

def complaint (a : Assertion) : String :=
  if a.negated then
    s!"Expected scope \"{a.scope}\" to NOT be present at columns {a.columns.start}-{a.columns.stop}."
  else s!"Expected scope \"{a.scope}\" at columns {a.columns.start}-{a.columns.stop}."

structure Judged (a : Assertion) (line : String) (tokens : List Token) (o : Outcome) : Prop where
  passed : o = .passed ↔ ¬(a.Present line tokens ↔ a.negated = true)
  message : ∀ message, o = .failed message →
    message = a.complaint ++ "\nFound scopes: " ++ ", ".intercalate (a.scopesUnder line tokens)

variable {a : Assertion} {line : String} {tokens : List Token}

theorem mem_scopesUnder {scope : String} : scope ∈ a.scopesUnder line tokens ↔
    ∃ b, a.columns.start ≤ b ∧ b < min a.columns.stop line.utf8ByteSize ∧ scope ∈ Token.scopesAt tokens b := by
  unfold scopesUnder bytes
  rw [List.mem_eraseDups, List.mem_flatMap]
  constructor
  · rintro ⟨b, hb, hs⟩
    obtain ⟨h1, h2⟩ := List.mem_filter.mp hb
    rw [List.mem_range] at h1
    rw [decide_eq_true_eq] at h2
    exact ⟨b, h2.1, by omega, hs⟩
  · rintro ⟨b, h1, h2, hs⟩
    refine ⟨b, List.mem_filter.mpr ⟨List.mem_range.mpr (by omega), ?_⟩, hs⟩
    rw [decide_eq_true_eq]
    omega

/-- The tokens that overlap the place of the carets have the scopes of its bytes. -/
theorem names_inSpan (hcolumns : a.columns.start < a.columns.stop) {offset : Nat}
    (hfollow : Token.Follow offset tokens) (hspell : Token.spelling tokens = line) :
    (Scope.inSpan tokens (a.columns.shift offset)).names = a.scopesUnder line tokens := by
  have hspan : (a.columns.shift offset).start < (a.columns.shift offset).stop :=
    Nat.add_lt_add_left hcolumns offset
  have hbytes : a.bytes line = (List.range (Token.spelling tokens).utf8ByteSize).filter
      fun b => decide ((a.columns.shift offset).start ≤ offset + b ∧ offset + b < (a.columns.shift offset).stop) := by
    unfold bytes
    rw [hspell]
    refine List.filter_congr fun b _ => ?_
    unfold Span.shift
    simp only [Nat.add_le_add_iff_left, Nat.add_lt_add_iff_left]
  unfold scopesUnder Scope.inSpan
  rw [← Scope.Found.names_ofList, hbytes]
  exact congrArg Scope.Found.names (Token.foldl_insert_bytes hspan .empty hfollow).symm

theorem meets_iff {found : Scope.Found} (hnames : found.names = a.scopesUnder line tokens) :
    found.meets a.scope = true ↔ a.Present line tokens := by
  unfold Scope.Found.meets Present
  rw [hnames, List.any_eq_true]
  constructor
  · rintro ⟨scope, hs, hw⟩
    obtain ⟨b, h1, h2, hb⟩ := mem_scopesUnder.mp hs
    exact ⟨b, h1, h2, scope, hb, (Scope.within_iff ..).mp hw⟩
  · rintro ⟨b, h1, h2, scope, hb, hw⟩
    exact ⟨scope, mem_scopesUnder.mpr ⟨b, h1, h2, hb⟩, (Scope.within_iff ..).mpr hw⟩

theorem message_missing (hneg : ¬a.negated = true) {found : Scope.Found}
    (hnames : found.names = a.scopesUnder line tokens) : (Check.Mismatch.missing a.toMarks found).message =
      a.complaint ++ "\nFound scopes: " ++ ", ".intercalate (a.scopesUnder line tokens) := by
  unfold complaint Check.Mismatch.message Scope.Found.display
  rw [if_neg hneg, ← hnames]
  simp only [String.append_assoc, toString]
  rfl

theorem message_unwanted (hneg : a.negated = true) {found : Scope.Found}
    (hnames : found.names = a.scopesUnder line tokens) : (Check.Mismatch.unwanted a.toMarks found).message =
      a.complaint ++ "\nFound scopes: " ++ ", ".intercalate (a.scopesUnder line tokens) := by
  unfold complaint Check.Mismatch.message Scope.Found.display
  rw [if_pos hneg, ← hnames]
  simp only [String.append_assoc, toString]
  rfl

theorem judged_of_mismatch?_eq_none {t : TokenizedText} {starts : LineStarts} (hm : mismatch? a t starts = none)
    (hjudged : ¬(a.Present line tokens ↔ a.negated = true)) : a.Judged line tokens (outcome a t starts) := by
  unfold outcome
  rw [hm]
  exact ⟨⟨fun _ => hjudged, fun _ => rfl⟩, fun message he => by cases he⟩

theorem judged_of_mismatch?_eq_some {t : TokenizedText} {starts : LineStarts} {m : Check.Mismatch}
    (hm : mismatch? a t starts = some m) (hjudged : a.Present line tokens ↔ a.negated = true)
    (hmessage : m.message = a.complaint ++ "\nFound scopes: " ++ ", ".intercalate (a.scopesUnder line tokens)) :
    a.Judged line tokens (outcome a t starts) := by
  unfold outcome
  rw [hm]
  refine ⟨⟨fun he => (by cases he), fun hne => absurd hjudged hne⟩, ?_⟩
  intro message he
  cases he
  exact hmessage

theorem judged_outcome {t : TokenizedText} {starts : LineStarts} {offset : Nat}
    (htokens : t.line? a.codeLine = some tokens)
    (hplace : starts.absolute? a.codeLine a.columns = some (a.columns.shift offset))
    (hcolumns : a.columns.start < a.columns.stop) (hfollow : Token.Follow offset tokens)
    (hspell : Token.spelling tokens = line) : a.Judged line tokens (outcome a t starts) := by
  have hnames := names_inSpan hcolumns hfollow hspell
  have hmeets := meets_iff hnames
  have hm : mismatch? a t starts =
      if (Scope.inSpan tokens (a.columns.shift offset)).meets a.scope then
        if a.negated then some (.unwanted a.toMarks (Scope.inSpan tokens (a.columns.shift offset))) else none
      else if a.negated then none
      else some (.missing a.toMarks (Scope.inSpan tokens (a.columns.shift offset))) := by
    unfold mismatch?
    rw [htokens, hplace]
  by_cases hp : (Scope.inSpan tokens (a.columns.shift offset)).meets a.scope = true
  · rw [if_pos hp] at hm
    by_cases hneg : a.negated = true
    · rw [if_pos hneg] at hm
      refine judged_of_mismatch?_eq_some hm ?_ (message_unwanted hneg hnames)
      exact ⟨fun _ => hneg, fun _ => hmeets.mp hp⟩
    · rw [if_neg hneg] at hm
      exact judged_of_mismatch?_eq_none hm fun h => hneg (h.mp (hmeets.mp hp))
  · rw [if_neg hp] at hm
    by_cases hneg : a.negated = true
    · rw [if_pos hneg] at hm
      exact judged_of_mismatch?_eq_none hm fun h => hp (hmeets.mpr (h.mpr hneg))
    · rw [if_neg hneg] at hm
      refine judged_of_mismatch?_eq_some hm ?_ (message_missing hneg hnames)
      exact ⟨fun h => absurd (hmeets.mpr h) hp, fun h => absurd h hneg⟩

end Assertion

namespace Check

theorem results_foldl_add : ∀ (results : List Result) (s : FileSummary),
    (results.foldl FileSummary.add s).results = s.results ++ results
  | [], s => (List.append_nil _).symm
  | r :: results, s => by
    rw [List.foldl_cons, results_foldl_add results]
    show s.results ++ [r] ++ results = _
    rw [List.append_assoc]
    rfl

theorem results_ofResults (path : String) (results : List Result) :
    (FileSummary.ofResults path results).results = results :=
  results_foldl_add results _

theorem checkSource_eq_map (h : Highlighter) (filter : Option String) (path source : String) :
    checkSource h filter path source = (h.explain path (Fixture.parse source).code).map fun t =>
      .ofResults path (((Fixture.parse source).assertions.filter (selects filter)).map fun a =>
        ⟨path, a, outcome a t (.ofLines (Fixture.parse source).codeLines)⟩) :=
  Results.bind_pure_eq_map _ _

theorem filter_selects_none (assertions : List Assertion) : assertions.filter (selects none) = assertions :=
  List.filter_eq_self.mpr fun _ _ => rfl

/-- Each assertion of a fixture has a result, in order, which is judged by the bytes of its
code line and the tokens that these are cut into. -/
theorem checkSource_judges (h : Highlighter) (path source : String) (summary : FileSummary)
    (hs : checkSource h none path source = .ok summary) :
    ∃ t, h.tokenize (Fixture.parse source).code true = .ok t ∧
      List.Forall₂ (fun a r => r.file = path ∧ r.assertion = a ∧
        ∃ line tokens, (Fixture.parse source).codeLines[a.codeLine]? = some line ∧
          t.lines[a.codeLine]? = some tokens ∧ Token.spelling tokens = line ∧
          a.Judged line tokens r.outcome)
        (Fixture.parse source).assertions summary.results := by
  obtain ⟨t, ht, hs⟩ := Results.bind_eq_ok.mp hs
  have ht := Results.mapError_eq_ok.mp ht
  have hall : (Fixture.parse source).assertions.filter (selects none) = (Fixture.parse source).assertions :=
    List.filter_eq_self.mpr fun _ _ => rfl
  cases hs
  refine ⟨t, ht, ?_⟩
  rw [hall, results_ofResults, List.forall₂_map_right_iff, List.forall₂_same]
  intro a ha
  have hlt := Fixture.codeLine_lt ha
  have hline := List.getElem?_eq_getElem hlt
  have hlines := Fixture.lines_code (List.ne_nil_of_length_pos (Nat.zero_lt_of_lt hlt))
  have htext : (Text.lines (Fixture.parse source).code)[a.codeLine]? = some (Fixture.parse source).codeLines[a.codeLine] := by
    rw [hlines]
    exact hline
  obtain ⟨tokens, htokens, hspell, hfollow⟩ := Highlighter.exists_tokens_of_tokenize ht htext
  rw [hlines] at hfollow
  refine ⟨rfl, rfl, _, tokens, hline, htokens, hspell, ?_⟩
  exact Assertion.judged_outcome htokens (LineStarts.absolute?_ofLines hline a.columns)
    (Fixture.columns_lt ha) hfollow hspell

end Check

namespace Brackets

def assertion : Assertion :=
  ⟨⟨⟨2, 3⟩, "round", false⟩, 2, 0⟩

theorem parse_fixture : Fixture.parse "ab(\n--^ round\n)b" = ⟨["ab(", ")b"], [assertion]⟩ := by rfl

theorem checkSource_fixture : checkSource highlighter none "f" "ab(\n--^ round\n)b" =
    .ok ⟨"f", [⟨"f", assertion, .passed⟩], 1, 0⟩ := by
  have hcode : Fixture.code ⟨["ab(", ")b"], [assertion]⟩ = "ab(\n)b" := by decide
  unfold checkSource Highlighter.explain
  simp only [parse_fixture, hcode, tokenize_text]
  rfl

end Brackets

theorem checkSource_judges_brackets :
    ∃ t, Brackets.highlighter.tokenize (Fixture.parse "ab(\n--^ round\n)b").code true = .ok t ∧
      List.Forall₂ (fun (a : Assertion) (r : Result) => r.file = "f" ∧ r.assertion = a ∧
        ∃ line tokens, (Fixture.parse "ab(\n--^ round\n)b").codeLines[a.codeLine]? = some line ∧
          t.lines[a.codeLine]? = some tokens ∧ Token.spelling tokens = line ∧
          a.Judged line tokens r.outcome)
        (Fixture.parse "ab(\n--^ round\n)b").assertions [⟨"f", Brackets.assertion, .passed⟩] :=
  Check.checkSource_judges Brackets.highlighter "f" "ab(\n--^ round\n)b" _ Brackets.checkSource_fixture

end Highlight
