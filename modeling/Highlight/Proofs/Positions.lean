import Highlight.Cli.Report
import Highlight.Proofs.Composition
import Highlight.Proofs.Judgement

/-!
# Positions agree

Where a line starts is counted three times: by the cut of the text into lines, by the table of
line starts, and by the offsets of tokens. The counts agree for the code of a fixture, which
joins its code lines, except that no code lines make one empty line. So each assertion finds
its line of tokens and its place, and the columns of a dump are those of the tokens in their
lines.
-/

namespace Highlight

/-! ## Lines above a line -/

namespace Text

def above (ls : List String) (i : Nat) : String :=
  String.join ((ls.take i).map (· ++ "\n"))

theorem above_succ (l : String) (ls : List String) (i : Nat) : above (l :: ls) (i + 1) = l ++ "\n" ++ above ls i := by
  unfold above
  rw [List.take_succ_cons, List.map_cons, String.join_cons]

theorem utf8ByteSize_above : ∀ (ls : List String) (i : Nat), (above ls i).utf8ByteSize = lineStart ls i
  | [], i => by
    unfold above
    rw [List.take_nil]
    rfl
  | l :: ls, 0 => rfl
  | l :: ls, i + 1 => by
    rw [above_succ, String.utf8ByteSize_append, String.utf8ByteSize_append, utf8ByteSize_above ls i, lineStart_succ]
    rfl

/-- A line of a text is what stands behind the lines above it. -/
theorem unlines_eq_above : ∀ {ls : List String} {i : Nat} {l : String}, ls[i]? = some l →
    unlines ls = above ls i ++ l ++ (if i + 1 = ls.length then "" else "\n" ++ unlines (ls.drop (i + 1)))
  | [], _, _, h => by cases h
  | [m], 0, _, h => by
    cases h
    unfold unlines above
    simp
  | m :: n :: ls, 0, _, h => by
    cases h
    rw [if_neg (by simp), unlines_cons_cons, List.drop_succ_cons, List.drop_zero, ← String.append_assoc]
    show _ = "" ++ _ ++ _ ++ _
    rw [String.empty_append]
  | [m], i + 1, _, h => by cases h
  | m :: n :: ls, i + 1, l, h => by
    have ih := unlines_eq_above (show (n :: ls)[i]? = some l from h)
    rw [unlines_cons_cons, ih, above_succ]
    simp only [String.append_assoc, List.length_cons, Nat.add_right_cancel_iff, List.drop_succ_cons]

end Text

theorem LineStarts.length_startsFrom : ∀ (ls : List String) (offset : Nat), (startsFrom offset ls).length = ls.length
  | [], _ => rfl
  | l :: ls, offset => by rw [startsFrom, List.length_cons, length_startsFrom ls, List.length_cons]

theorem LineStarts.start?_ofLines {ls : List String} {i : Nat} {line : String} (h : ls[i]? = some line) :
    (ofLines ls).start? i = some (Text.lineStart ls i) := by
  unfold start? ofLines
  rw [getElem?_startsFrom 0 h, Nat.zero_add]

theorem Token.within_of_follow {tokens : List Token} {offset : Nat} (h : Follow offset tokens) {token : Token}
    (ht : token ∈ tokens) : offset ≤ token.offset ∧ token.span.stop ≤ offset + (spelling tokens).utf8ByteSize := by
  obtain ⟨before, after, rfl⟩ := List.append_of_mem ht
  have ho := offset_of_follow h
  have hstop : token.span.stop = token.offset + token.content.utf8ByteSize := rfl
  rw [spelling_append, spelling_cons, String.utf8ByteSize_append, String.utf8ByteSize_append]
  omega

namespace Highlighter

variable {h : Highlighter} {text : String} {explain : Bool} {t : TokenizedText}

def Tokenizes (h : Highlighter) (explain : Bool) (lines : List String) (i start : Nat) (tokens : List Token) : Prop :=
  ∃ line s ps e, lines[i]? = some line ∧
    h.paintLines 1 (.start 0 [h.grammar.scopeName]) ((lines.take i).map String.toList) = .ok (s, ps) ∧
    h.paintLine (i + 1) line.toList s = .ok e ∧ tokens = lineTokens line.toList start explain e.2

/-- Painting lines comes to each of them after those above it. -/
theorem exists_paintLine {lines : List String} {i : Nat} {line : String} (hl : lines[i]? = some line) {s : State}
    {e : State × List Painting} (he : h.paintLines 1 s (lines.map String.toList) = .ok e) :
    ∃ s' ps r, h.paintLines 1 s ((lines.take i).map String.toList) = .ok (s', ps) ∧
      h.paintLine (i + 1) line.toList s' = .ok r ∧ e.2[i]? = some r.2 := by
  obtain ⟨hi, rfl⟩ := List.getElem?_eq_some_iff.mp hl
  have hcut : lines.map String.toList =
      (lines.take i).map String.toList ++ lines[i].toList :: (lines.drop (i + 1)).map String.toList := by
    rw [← List.map_cons, ← List.map_append, List.getElem_cons_drop, List.take_append_drop]
  have hlength : ((lines.take i).map String.toList).length = i := by
    rw [List.length_map, List.length_take_of_le (Nat.le_of_lt hi)]
  rw [hcut] at he
  cases hb : h.paintLines 1 s ((lines.take i).map String.toList) with
  | error d =>
    rw [paintLines_append_of_error _ hb] at he
    cases he
  | ok b =>
    obtain ⟨s', ps⟩ := b
    rw [paintLines_append_of_ok _ hb, hlength] at he
    obtain ⟨rest, hrest, rfl⟩ := Results.map_eq_ok.mp he
    rw [paintLines, Nat.add_comm 1] at hrest
    obtain ⟨r, hr, hrest⟩ := Results.bind_eq_ok.mp hrest
    obtain ⟨qs, _, hrest⟩ := Results.bind_eq_ok.mp hrest
    cases hrest
    refine ⟨s', ps, r, rfl, hr, ?_⟩
    have hps : ps.length = i := by rw [← length_paintLines hb, hlength]
    show (ps ++ r.2 :: qs.2)[i]? = some r.2
    rw [← hps, List.getElem?_append_right (Nat.le_refl _), Nat.sub_self]
    rfl

/-- The tokens of each line of a text are those of the line, which they spell from its start on. -/
theorem tokenizes_of_tokenize (ht : h.tokenize text explain = .ok t) {i : Nat} {line : String}
    (hl : (Text.lines text)[i]? = some line) :
    ∃ tokens, t.lines[i]? = some tokens ∧
      h.Tokenizes explain (Text.lines text) i (Text.lineStart (Text.lines text) i) tokens ∧
      Token.spelling tokens = line ∧ Token.Follow (Text.lineStart (Text.lines text) i) tokens := by
  obtain ⟨tokens, htokens, hspell, hfollow⟩ := exists_tokens_of_tokenize ht hl
  refine ⟨tokens, htokens, ?_, hspell, hfollow⟩
  rw [tokenize_eq] at ht
  obtain ⟨e, he, rfl⟩ := Results.map_eq_ok.mp ht
  obtain ⟨s, ps, r, hb, hr, hp⟩ := exists_paintLine hl he
  obtain ⟨l, p, hl', hp', htoken⟩ := getElem?_tokensOf explain htokens
  rw [hl] at hl'
  rw [hp] at hp'
  cases hl'
  cases hp'
  rw [Nat.zero_add] at htoken
  exact ⟨line, s, ps, r, hl, hb, hr, htoken⟩

end Highlighter

/-! ## The code of a fixture -/

/-- The tokens of a fixture stand where its code lines do. -/
structure Fixture.Placed (f : Fixture) (h : Highlighter) (t : TokenizedText) : Prop where
  /-- Without code lines there is still an empty one. -/
  count : t.lines.length = max 1 f.codeLines.length
  starts : (LineStarts.ofLines f.codeLines).starts.length = f.codeLines.length
  line : ∀ i line, f.codeLines[i]? = some line → ∃ start tokens,
    (LineStarts.ofLines f.codeLines).start? i = some start ∧ t.line? i = some tokens ∧
    start = (Text.above f.codeLines i).utf8ByteSize ∧
    f.code = Text.above f.codeLines i ++ line ++
      (if i + 1 = f.codeLines.length then "" else "\n" ++ Text.unlines (f.codeLines.drop (i + 1))) ∧
    h.Tokenizes true f.codeLines i start tokens ∧ Token.spelling tokens = line ∧
    ∀ token ∈ tokens, start ≤ token.offset ∧ token.offset + token.content.utf8ByteSize ≤ start + line.utf8ByteSize
  assertion : ∀ a ∈ f.assertions, (t.line? a.codeLine).isSome ∧
    ((LineStarts.ofLines f.codeLines).absolute? a.codeLine a.columns).isSome
  empty : f.codeLines = [] → f.code = "" ∧ t.lines = [[]] ∧ f.assertions = []

namespace Fixture

variable {h : Highlighter} {source : String} {t : TokenizedText}

theorem assertions_eq_nil (hnone : (parse source).codeLines = []) : (parse source).assertions = [] := by
  refine List.eq_nil_iff_forall_not_mem.mpr fun a ha => ?_
  have hlt := codeLine_lt ha
  rw [hnone] at hlt
  exact Nat.not_lt_zero _ hlt

theorem code_eq_empty (hnone : (parse source).codeLines = []) : (parse source).code = "" := by
  unfold code
  rw [hnone]
  rfl

theorem placed_parse (ht : h.tokenize (parse source).code true = .ok t) : (parse source).Placed h t where
  count := by
    rw [Highlighter.length_lines_of_tokenize ht]
    by_cases hnone : (parse source).codeLines = []
    · rw [code_eq_empty hnone, hnone]
      rfl
    · rw [lines_code hnone]
      have := List.length_pos_of_ne_nil hnone
      omega
  starts := LineStarts.length_startsFrom _ 0
  line i line hl := by
    have hlines := lines_code (List.ne_nil_of_mem (List.mem_of_getElem? hl))
    obtain ⟨tokens, htokens, hmade, hspell, hfollow⟩ := Highlighter.tokenizes_of_tokenize ht (hlines ▸ hl)
    rw [hlines] at hmade hfollow
    refine ⟨_, tokens, LineStarts.start?_ofLines hl, htokens, (Text.utf8ByteSize_above _ i).symm,
      Text.unlines_eq_above hl, hmade, hspell, fun token htoken => ?_⟩
    rw [← hspell]
    exact Token.within_of_follow hfollow htoken
  assertion a ha := by
    obtain ⟨line, hl⟩ : ∃ line, (parse source).codeLines[a.codeLine]? = some line :=
      ⟨_, List.getElem?_eq_getElem (codeLine_lt ha)⟩
    have htext := hl
    rw [← lines_code (List.ne_nil_of_mem (List.mem_of_getElem? hl))] at htext
    obtain ⟨tokens, htokens, _⟩ := Highlighter.exists_tokens_of_tokenize ht htext
    rw [TokenizedText.line?, htokens, LineStarts.absolute?_ofLines hl]
    exact ⟨rfl, rfl⟩
  empty hnone := by
    refine ⟨code_eq_empty hnone, ?_, assertions_eq_nil hnone⟩
    rw [code_eq_empty hnone] at ht
    have hl : (Text.lines "")[0]? = some "" := rfl
    have hlength : t.lines.length = 1 := Highlighter.length_lines_of_tokenize ht
    obtain ⟨tokens, htokens, hspell, hfollow⟩ := Highlighter.exists_tokens_of_tokenize ht hl
    obtain ⟨line, hline⟩ := List.length_eq_one_iff.mp hlength
    rw [hline] at htokens ⊢
    obtain rfl : line = tokens := Option.some.inj htokens
    -- a token would spell something
    cases line with
    | nil => rfl
    | cons token rest =>
      rw [Token.spelling_cons] at hspell
      exact absurd (String.append_eq_empty_iff.mp hspell).1 hfollow.2.1

end Fixture

namespace Check

theorem Mismatch.message_of_ne {m : Mismatch} (hm : ∀ k, m ≠ .noTokens k) :
    ∃ rest, m.message = "Expected scope \"" ++ rest := by
  cases m with
  | noTokens k => exact absurd rfl (hm k)
  | missing marks found =>
    unfold message
    simp only [String.append_assoc]
    exact ⟨_, rfl⟩
  | unwanted marks found =>
    unfold message
    simp only [String.append_assoc]
    exact ⟨_, rfl⟩

theorem Mismatch.message_ne_noTokens {m : Mismatch} (hm : ∀ k, m ≠ .noTokens k) (k : Nat) :
    m.message ≠ (noTokens k).message := by
  intro he
  obtain ⟨rest, hrest⟩ := message_of_ne hm
  have hnone : ∃ rest, (noTokens k).message = "No tokens for code line " ++ rest := ⟨_, rfl⟩
  obtain ⟨number, hnumber⟩ := hnone
  rw [hrest, hnumber] at he
  have hhead := congrArg (fun s => s.toList.head?) he
  simp at hhead

/-- Where an assertion finds its line and its place, its outcome is not for want of tokens. -/
theorem outcome_ne_noTokens {a : Assertion} {t : TokenizedText} {starts : LineStarts} (hl : (t.line? a.codeLine).isSome)
    (hp : (starts.absolute? a.codeLine a.columns).isSome) (k : Nat) :
    outcome a t starts ≠ .failed (Mismatch.noTokens k).message := by
  obtain ⟨tokens, hl⟩ := Option.isSome_iff_exists.mp hl
  obtain ⟨span, hp⟩ := Option.isSome_iff_exists.mp hp
  have hfound (m : Mismatch) (hm : mismatch? a t starts = some m) (j : Nat) : m ≠ .noTokens j := by
    unfold mismatch? at hm
    rw [hl, hp] at hm
    grind
  unfold outcome
  cases hm : mismatch? a t starts with
  | none =>
    intro h
    cases h
  | some m =>
    intro h
    exact Mismatch.message_ne_noTokens (hfound m hm) k (Outcome.failed.inj h)

theorem of_mem_results {h : Highlighter} {filter : Option String} {path source : String} {s : FileSummary}
    (hs : checkSource h filter path source = .ok s) {r : Result} (hr : r ∈ s.results) :
    ∃ t, h.tokenize (Fixture.parse source).code true = .ok t ∧ ∃ a ∈ (Fixture.parse source).assertions,
      r = ⟨path, a, outcome a t (.ofLines (Fixture.parse source).codeLines)⟩ := by
  obtain ⟨t, ht, hs⟩ := Results.bind_eq_ok.mp hs
  cases hs
  rw [results_ofResults] at hr
  obtain ⟨a, ha, rfl⟩ := List.mem_map.mp hr
  exact ⟨t, Results.mapError_eq_ok.mp ht, a, (List.mem_filter.mp ha).1, rfl⟩

end Check

/-! ## Columns of a dump -/

def Token.atColumns (column : Nat) : List Token → List Token
  | [] => []
  | t :: ts => { t with offset := column } :: atColumns (column + t.content.utf8ByteSize) ts

namespace Cli

theorem tokenLine_atColumns (number start : Nat) : ∀ {tokens : List Token} {column : Nat},
    Token.Follow (start + column) tokens →
    tokens.map (tokenLine number start) = (Token.atColumns column tokens).map (tokenLine number 0)
  | [], _, _ => rfl
  | t :: ts, column, ⟨ho, _, hr⟩ => by
    have hline : tokenLine number start t = tokenLine number 0 { t with offset := column } := by
      unfold tokenLine
      rw [ho, Nat.add_sub_cancel_left]
      rfl
    rw [List.map_cons, Token.atColumns, List.map_cons, hline, tokenLine_atColumns number start]
    rw [← Nat.add_assoc, ← ho]
    exact hr

/-- What is dumped of a text has for each token its column in its line, as it is counted along
the line. -/
structure Dumped (source : String) (t : TokenizedText) (starts : LineStarts) : Prop where
  column : ∀ (i : Nat) (before after : List Token) (token : Token), t.lines[i]? = some (before ++ token :: after) →
    (Text.lines source)[i]? = some (Token.spelling before ++ token.content ++ Token.spelling after) ∧
    ∃ start, starts.start? i = some start ∧ start ≤ token.offset ∧
      token.offset - start = (Token.spelling before).utf8ByteSize
  start : ∀ i, i < t.lines.length → (starts.start? i).isSome
  printed : dumpLines t starts =
    (t.lines.zipIdx.map fun (tokens, i) => (Token.atColumns 0 tokens).map (tokenLine (i + 1) 0)).flatten

theorem dumped_of_tokenize {h : Highlighter} {source : String} {t : TokenizedText}
    (ht : h.tokenize source true = .ok t) : Dumped source t (.ofLines (Text.lines source)) := by
  have hline (i : Nat) (tokens : List Token) (htokens : t.lines[i]? = some tokens) :
      (Text.lines source)[i]? = some (Token.spelling tokens) ∧
      (LineStarts.ofLines (Text.lines source)).start? i = some (Text.lineStart (Text.lines source) i) ∧
      Token.Follow (Text.lineStart (Text.lines source) i) tokens := by
    have hi : i < (Text.lines source).length := by
      rw [← Highlighter.length_lines_of_tokenize ht]
      exact (List.getElem?_eq_some_iff.mp htokens).1
    have hl := List.getElem?_eq_getElem hi
    obtain ⟨tokens', htokens', hspell, hfollow⟩ := Highlighter.exists_tokens_of_tokenize ht hl
    rw [htokens] at htokens'
    cases htokens'
    exact ⟨by rw [hl, hspell], LineStarts.start?_ofLines hl, hfollow⟩
  refine ⟨?_, ?_, ?_⟩
  · intro i before after token htokens
    obtain ⟨hl, hstart, hfollow⟩ := hline i _ htokens
    have ho := Token.offset_of_follow hfollow
    rw [Token.spelling_append, Token.spelling_cons, ← String.append_assoc] at hl
    exact ⟨hl, _, hstart, by omega, by omega⟩
  · intro i hi
    rw [(hline i _ (List.getElem?_eq_getElem hi)).2.1]
    rfl
  · unfold dumpLines
    refine congrArg List.flatten (List.map_congr_left fun x hx => ?_)
    obtain ⟨tokens, i⟩ := x
    have htokens : t.lines[i]? = some tokens := by simpa using List.mem_zipIdx_iff_getElem?.mp hx
    obtain ⟨_, hstart, hfollow⟩ := hline i tokens htokens
    simp only
    rw [hstart, Option.getD_some]
    exact tokenLine_atColumns (i + 1) _ hfollow

end Cli

/-- The tokens of a fixture stand where the table of its line starts says, so no assertion
fails for want of tokens; and a dump tells the columns of the tokens in their lines. -/
theorem positions_agree (h : Highlighter) :
    (∀ source t, h.tokenize (Fixture.parse source).code true = .ok t → (Fixture.parse source).Placed h t) ∧
    (∀ filter path source s, Check.checkSource h filter path source = .ok s →
      ∀ r ∈ s.results, ∀ k, r.outcome ≠ .failed (Check.Mismatch.noTokens k).message) ∧
    ∀ source t, h.tokenize source true = .ok t → Cli.Dumped source t (.ofLines (Text.lines source)) := by
  refine ⟨fun source t ht => Fixture.placed_parse ht, ?_, fun source t ht => Cli.dumped_of_tokenize ht⟩
  intro filter path source s hs r hr k
  obtain ⟨t, ht, a, ha, rfl⟩ := Check.of_mem_results hs hr
  obtain ⟨hline, hplace⟩ := (Fixture.placed_parse ht).assertion a ha
  exact Check.outcome_ne_noTokens hline hplace k

theorem positions_agree_brackets :
    Fixture.Placed ⟨["ab(", ")b"], [Brackets.assertion]⟩ Brackets.highlighter Brackets.tokens ∧
    (∀ k, Check.Outcome.passed ≠ .failed (Check.Mismatch.noTokens k).message) ∧
    Cli.Dumped "ab(\n)b" Brackets.tokens ⟨[0, 4]⟩ := by
  have hcode : Fixture.code ⟨["ab(", ")b"], [Brackets.assertion]⟩ = "ab(\n)b" := by decide
  have hstarts : LineStarts.ofLines (Text.lines "ab(\n)b") = ⟨[0, 4]⟩ := by decide
  obtain ⟨hplaced, houtcome, hdumped⟩ := positions_agree Brackets.highlighter
  refine ⟨?_, ?_, ?_⟩
  · have hfixture := hplaced "ab(\n--^ round\n)b" Brackets.tokens
    rw [Brackets.parse_fixture, hcode] at hfixture
    exact hfixture Brackets.tokenize_text
  · exact houtcome none "f" _ _ Brackets.checkSource_fixture _ (List.mem_singleton.mpr rfl)
  · rw [← hstarts]
    exact hdumped _ _ Brackets.tokenize_text

end Highlight
