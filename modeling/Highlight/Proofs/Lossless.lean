import Highlight.Proofs.Lines
import Highlight.Regex.Search
import Mathlib.Data.List.Basic

/-!
# Tokens cut a text

The tokens of a text are its lines cut into the longest runs of equal scopes.
Nothing of a line is lost or told twice, and the line end that was added to it is
in no token. Whether the scopes are told does not change the cuts.
-/

namespace Highlight

def Token.bare (t : Token) : Token :=
  { t with explanation := none }

namespace TokenizedText

def bare (t : TokenizedText) : TokenizedText :=
  ⟨t.lines.map (·.map Token.bare)⟩

/-- The lines of tokens are the lines of a text, each cut into tokens. -/
structure Cuts (t : TokenizedText) (text : String) : Prop where
  lines : t.lines.length = (Text.lines text).length
  spelling : ∀ (i : Nat) (line : String) (tokens : List Token), (Text.lines text)[i]? = some line →
    t.lines[i]? = some tokens → String.join (tokens.map (·.content)) = line
  nonempty : ∀ tokens ∈ t.lines, ∀ token ∈ tokens, token.content ≠ ""
  /-- A token starts after the tokens before it on its line. -/
  offset : ∀ (i : Nat) (before after : List Token) (token : Token),
    t.lines[i]? = some (before ++ token :: after) →
    token.offset = Text.lineStart (Text.lines text) i +
      (String.join (before.map (·.content))).utf8ByteSize
  /-- The bytes of the text from the offset on are those of the token. -/
  bytes : ∀ tokens ∈ t.lines, ∀ token ∈ tokens,
    text.toByteArray.extract token.offset (token.offset + token.content.utf8ByteSize) =
      token.content.toByteArray

/-- Each token has one stack of scopes, and neighbours on a line have different ones. -/
structure Explained (t : TokenizedText) : Prop where
  single : ∀ tokens ∈ t.lines, ∀ token ∈ tokens, ∃ scopes, token.explanation = some [⟨token.content, scopes⟩]
  maximal : ∀ tokens ∈ t.lines, tokens.IsChain fun a b => a.scopes ≠ b.scopes

end TokenizedText

namespace Token

theorem nonempty_of_follow : ∀ {tokens : List Token} {offset : Nat}, Follow offset tokens →
    ∀ token ∈ tokens, token.content ≠ ""
  | t :: _, _, ⟨_, hc, hr⟩, token, hm => by
    rcases List.mem_cons.mp hm with rfl | hm
    · exact hc
    · exact nonempty_of_follow hr token hm

theorem offset_of_follow {before after : List Token} {token : Token} {offset : Nat}
    (h : Follow offset (before ++ token :: after)) :
    token.offset = offset + (spelling before).utf8ByteSize :=
  (follow_append.mp h).2.1

end Token

namespace Highlighter

open TokenizedText (Cuts Explained)

variable {text : String} {ps : List Painting} {explain : Bool}

theorem exists_of_getElem?_tokensOf
    (hp : List.Forall₂ (fun line p => Painting.Tiling p.stretches line.length) ((Text.lines text).map String.toList) ps)
    {i : Nat} {tokens : List Token}
    (ht : (tokensOf explain 0 ((Text.lines text).map String.toList) ps)[i]? = some tokens) :
    ∃ line p, (Text.lines text)[i]? = some line ∧ Painting.Tiling p.stretches line.toList.length ∧
      tokens = lineTokens line.toList (Text.lineStart (Text.lines text) i) explain p := by
  obtain ⟨line, p, hl, hq, he⟩ := getElem?_tokensOf explain ht
  rw [Nat.zero_add] at he
  refine ⟨line, p, hl, ?_, he⟩
  have hl' : ((Text.lines text).map String.toList)[i]? = some line.toList := by
    rw [List.getElem?_map, hl]
    rfl
  obtain ⟨hi, hle⟩ := List.getElem?_eq_some_iff.mp hl'
  obtain ⟨hj, hqe⟩ := List.getElem?_eq_some_iff.mp hq
  have := hp.get hi hj
  rw [List.get_eq_getElem, List.get_eq_getElem, hle, hqe] at this
  exact this

variable {line : String} {p : Painting} (offset : Nat) (explain : Bool)

theorem spelling_lineTokens (ht : Painting.Tiling p.stretches line.toList.length) :
    Token.spelling (lineTokens line.toList offset explain p) = line := by
  unfold lineTokens
  rw [Painting.spelling_stretches offset explain ht, List.take_length, String.ofList_toList]

theorem follow_lineTokens (ht : Painting.Tiling p.stretches line.toList.length) :
    Token.Follow offset (lineTokens line.toList offset explain p) :=
  Painting.follow_stretches offset explain ht (Nat.le_refl _)

variable {offset explain}

/-- A line of tokens spells its line of the text, from where that line starts. -/
theorem line_of_getElem?_tokensOf
    (hp : List.Forall₂ (fun line p => Painting.Tiling p.stretches line.length) ((Text.lines text).map String.toList) ps)
    {i : Nat} {tokens : List Token}
    (ht : (tokensOf explain 0 ((Text.lines text).map String.toList) ps)[i]? = some tokens) :
    (Text.lines text)[i]? = some (Token.spelling tokens) ∧
      Token.Follow (Text.lineStart (Text.lines text) i) tokens := by
  obtain ⟨line, p, hl, htile, rfl⟩ := exists_of_getElem?_tokensOf hp ht
  rw [spelling_lineTokens _ explain htile]
  exact ⟨hl, follow_lineTokens _ explain htile⟩

theorem cuts_tokensOf
    (hp : List.Forall₂ (fun line p => Painting.Tiling p.stretches line.length) ((Text.lines text).map String.toList) ps) :
    Cuts ⟨tokensOf explain 0 ((Text.lines text).map String.toList) ps⟩ text where
  lines := by rw [length_tokensOf explain 0 hp.length_eq, List.length_map]
  spelling i line tokens hl ht := by
    have hline := (line_of_getElem?_tokensOf hp ht).1
    rw [hl] at hline
    cases hline
    rfl
  nonempty tokens hm := by
    obtain ⟨i, ht⟩ := List.mem_iff_getElem?.mp hm
    exact Token.nonempty_of_follow (line_of_getElem?_tokensOf hp ht).2
  offset i before after token ht := Token.offset_of_follow (line_of_getElem?_tokensOf hp ht).2
  bytes tokens hm token htok := by
    obtain ⟨i, ht⟩ := List.mem_iff_getElem?.mp hm
    obtain ⟨hline, hfollow⟩ := line_of_getElem?_tokensOf hp ht
    obtain ⟨before, after, rfl⟩ := List.append_of_mem htok
    -- the text up to the token is the lines above and the tokens before it
    obtain ⟨above, below, htext, hstart⟩ := Text.unlines_eq_append hline
    rw [Text.unlines_lines, Token.spelling_append, Token.spelling_cons] at htext
    have hoffset : token.offset = (above ++ Token.spelling before).utf8ByteSize := by
      rw [Token.offset_of_follow hfollow, String.utf8ByteSize_append, hstart]
    rw [hoffset]
    apply Text.extract_toByteArray (c := Token.spelling after ++ below)
    rw [htext]
    simp only [String.append_assoc]

theorem explained_tokensOf
    (hp : List.Forall₂ (fun line p => Painting.Tiling p.stretches line.length) ((Text.lines text).map String.toList) ps) :
    Explained ⟨tokensOf true 0 ((Text.lines text).map String.toList) ps⟩ where
  single tokens hm token htok := by
    obtain ⟨i, ht⟩ := List.mem_iff_getElem?.mp hm
    obtain ⟨line, p, _, _, rfl⟩ := exists_of_getElem?_tokensOf hp ht
    obtain ⟨s, _, rfl⟩ := List.mem_map.mp htok
    exact ⟨s.scopes, rfl⟩
  maximal tokens hm := by
    obtain ⟨i, ht⟩ := List.mem_iff_getElem?.mp hm
    obtain ⟨line, p, _, htile, rfl⟩ := exists_of_getElem?_tokensOf hp ht
    unfold lineTokens
    rw [List.isChain_map]
    refine (Painting.isChain_stretches htile).imp ?_
    intro s t hst
    simpa [Token.scopes, token] using hst

theorem exists_tokens_of_tokenize {h : Highlighter} {t : TokenizedText} (ht : h.tokenize text explain = .ok t)
    {i : Nat} {line : String} (hl : (Text.lines text)[i]? = some line) :
    ∃ tokens, t.lines[i]? = some tokens ∧ Token.spelling tokens = line ∧
      Token.Follow (Text.lineStart (Text.lines text) i) tokens := by
  rw [tokenize_eq] at ht
  obtain ⟨e, he, rfl⟩ := Results.map_eq_ok.mp ht
  have hp := tiling_paintLines he
  have hi : i < (tokensOf explain 0 ((Text.lines text).map String.toList) e.2).length := by
    rw [length_tokensOf explain 0 hp.length_eq, List.length_map]
    exact (List.getElem?_eq_some_iff.mp hl).1
  obtain ⟨hline, hfollow⟩ := line_of_getElem?_tokensOf hp (List.getElem?_eq_getElem hi)
  rw [hl] at hline
  exact ⟨_, List.getElem?_eq_getElem hi, (Option.some.inj hline).symm, hfollow⟩

theorem tokensOf_false : ∀ (lines : List (List Char)) (ps : List Painting) (offset : Nat),
    tokensOf false offset lines ps = (tokensOf true offset lines ps).map (·.map Token.bare)
  | [], _, _ => rfl
  | _ :: _, [], _ => rfl
  | line :: lines, p :: ps, offset => by
    rw [tokensOf, tokensOf, List.map_cons, tokensOf_false lines ps]
    congr 1
    unfold lineTokens
    rw [List.map_map]
    rfl

/-- What is highlighted is cut into tokens without loss, and the cuts are the same
whether or not the scopes are told. -/
theorem tokenize_lossless (h : Highlighter) (text : String) (explain : Bool) (t : TokenizedText)
    (ht : h.tokenize text explain = .ok t) :
    t.Cuts text ∧ ∃ u, h.tokenize text true = .ok u ∧ u.Explained ∧ h.tokenize text false = .ok u.bare := by
  rw [tokenize_eq] at ht
  obtain ⟨e, he, rfl⟩ := Results.map_eq_ok.mp ht
  have hp := tiling_paintLines he
  refine ⟨cuts_tokensOf hp, ⟨tokensOf true 0 ((Text.lines text).map String.toList) e.2⟩, ?_,
    explained_tokensOf hp, ?_⟩
  · rw [tokenize_eq, he]
    rfl
  · rw [tokenize_eq, he]
    simp only [Except.map, tokensOf_false]
    rfl

end Highlighter

/-! ## An example -/

namespace Brackets

def literal (c : Char) : Pattern :=
  ⟨String.ofList [c], .text [c], 0⟩

def bracket : Region Nat Pattern where
  name := some "round"
  contentName := none
  opening := literal '('
  openingCaptures := []
  closing := .fixed (literal ')')
  closingCaptures := []
  patterns := [1]
  lasting := .untilClosed false

def highlighter : Highlighter where
  grammar := {
    name := none
    scopeName := "g"
    rules := #[.container [1], .region bracket]
    candidates := #[[1], [1]]
    candidates_eq := by cbv }
  engine := .backtracking

def opened : State where
  base := 0
  baseScopes := ["g"]
  frames := [⟨1, bracket, literal ')', ["g"], ["g", "round"], ["g", "round"], some 0⟩]

theorem paintLine_open : highlighter.paintLine 1 ['a', 'b', '('] (.start 0 ["g"]) =
    .ok (opened, ⟨3, [⟨⟨2, 3⟩, ["g", "round"]⟩, ⟨⟨0, 2⟩, ["g"]⟩]⟩) := by
  have hopen : highlighter.step 1 (highlighter.scanWithin 1 16) #['a', 'b', '(', '\n'] 0 (.start 0 ["g"]) (.blank 3) =
      .ok (.next 3 opened ⟨3, [⟨⟨2, 3⟩, ["g", "round"]⟩, ⟨⟨0, 2⟩, ["g"]⟩]⟩) := by cbv
  have hrest : highlighter.step 1 (highlighter.scanWithin 1 16) #['a', 'b', '(', '\n'] 3 opened
      ⟨3, [⟨⟨2, 3⟩, ["g", "round"]⟩, ⟨⟨0, 2⟩, ["g"]⟩]⟩ =
      .ok (.done opened ⟨3, [⟨⟨2, 3⟩, ["g", "round"]⟩, ⟨⟨0, 2⟩, ["g"]⟩]⟩) := by cbv
  exact (Highlighter.scan_of_next hopen).trans (Highlighter.scan_of_done hrest)

theorem paintLine_close : highlighter.paintLine 2 [')', 'b'] opened =
    .ok (.start 0 ["g"], ⟨2, [⟨⟨1, 2⟩, ["g"]⟩, ⟨⟨0, 1⟩, ["g", "round"]⟩]⟩) := by
  have hclose : highlighter.step 2 (highlighter.scanWithin 2 13) #[')', 'b', '\n'] 0 opened.atLineStart (.blank 2) =
      .ok (.next 1 (.start 0 ["g"]) ⟨2, [⟨⟨0, 1⟩, ["g", "round"]⟩]⟩) := by cbv
  have hrest : highlighter.step 2 (highlighter.scanWithin 2 13) #[')', 'b', '\n'] 1 (.start 0 ["g"])
      ⟨2, [⟨⟨0, 1⟩, ["g", "round"]⟩]⟩ =
      .ok (.done (.start 0 ["g"]) ⟨2, [⟨⟨1, 2⟩, ["g"]⟩, ⟨⟨0, 1⟩, ["g", "round"]⟩]⟩) := by cbv
  exact (Highlighter.scan_of_next hclose).trans (Highlighter.scan_of_done hrest)

def tokens : TokenizedText where
  lines := [
    [⟨0, "ab", some [⟨"ab", ["g"]⟩]⟩, ⟨2, "(", some [⟨"(", ["g", "round"]⟩]⟩],
    [⟨4, ")", some [⟨")", ["g", "round"]⟩]⟩, ⟨5, "b", some [⟨"b", ["g"]⟩]⟩]]

theorem lines_text : (Text.lines "ab(\n)b").map String.toList = [['a', 'b', '('], [')', 'b']] := by decide

theorem paintLines_text : highlighter.paintLines 1 (.start 0 ["g"]) [['a', 'b', '('], [')', 'b']] =
    .ok (.start 0 ["g"], [⟨3, [⟨⟨2, 3⟩, ["g", "round"]⟩, ⟨⟨0, 2⟩, ["g"]⟩]⟩,
      ⟨2, [⟨⟨1, 2⟩, ["g"]⟩, ⟨⟨0, 1⟩, ["g", "round"]⟩]⟩]) := by
  rw [Highlighter.paintLines_cons_of_ok paintLine_open, Highlighter.paintLines_cons_of_ok paintLine_close]
  rfl

theorem tokenize_text : highlighter.tokenize "ab(\n)b" true = .ok tokens := by
  rw [Highlighter.tokenize_eq, lines_text]
  show (highlighter.paintLines 1 (.start 0 ["g"]) _).map _ = _
  rw [paintLines_text]
  rfl

end Brackets

theorem tokenize_lossless_brackets : Brackets.tokens.Cuts "ab(\n)b" ∧
    ∃ u, Brackets.highlighter.tokenize "ab(\n)b" true = .ok u ∧ u.Explained ∧
      Brackets.highlighter.tokenize "ab(\n)b" false = .ok u.bare :=
  Highlighter.tokenize_lossless Brackets.highlighter "ab(\n)b" true Brackets.tokens Brackets.tokenize_text

end Highlight
