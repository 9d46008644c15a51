import Highlight.Proofs.Lossless
import Highlight.Proofs.Numbering

/-!
# Texts one after another

What comes after a line end has no influence on the tokens before it, and where all
regions are closed at the line end, what came before it has none on the tokens after
it, but for their offsets and the line number in an error. Of the lines before, only the
open regions are remembered.
-/

namespace Highlight

/-! ## The root stays -/

/-- The rule and scopes outside of all regions are the same. -/
def State.SameRoot (s t : State) : Prop :=
  s.base = t.base ∧ s.baseScopes = t.baseScopes

def Progress.state : Progress → State
  | done s _ => s
  | next _ s _ => s

theorem State.SameRoot.trans {s t u : State} (hst : s.SameRoot t) (htu : t.SameRoot u) : s.SameRoot u :=
  ⟨hst.1.trans htu.1, hst.2.trans htu.2⟩

/-- With all regions closed, only the root is left. -/
theorem State.SameRoot.eq_start {s : State} {base : Nat} {scopes : List String}
    (hs : s.SameRoot (.start base scopes)) (hframes : s.frames = []) : s = .start base scopes := by
  obtain ⟨b, ss, fs⟩ := s
  obtain ⟨hb, hss⟩ := hs
  cases hb
  cases hss
  cases hframes
  rfl

namespace Highlighter

variable {h : Highlighter} {line : Nat} {again : Retokenize} {text : Array Char}

theorem sameRoot_settle {start : Nat} {s : State} {m : Match} {p : Painting} {c : Choice} {r : Progress}
    (hr : h.settle line text start s m p c = .ok r) : r.state.SameRoot s := by
  cases c with
  | leave f below =>
    rw [settle, Except.ok.injEq] at hr
    subst hr
    split
    · exact ⟨rfl, rfl⟩
    · exact ⟨rfl, rfl⟩
  | piece name captures =>
    rw [settle, Except.ok.injEq] at hr
    subst hr
    split
    · exact ⟨rfl, rfl⟩
    · exact ⟨rfl, rfl⟩
  | enter id r =>
    obtain ⟨closing, _, rfl⟩ := Results.map_eq_ok.mp hr
    exact ⟨rfl, rfl⟩

theorem sameRoot_step {start : Nat} {s : State} {p : Painting} {r : Progress}
    (hr : h.step line again text start s p = .ok r) : r.state.SameRoot s := by
  cases hn : h.next text start s with
  | none =>
    rw [step_of_next_eq_none h line again text p hn] at hr
    cases hr
    exact ⟨rfl, rfl⟩
  | some cm =>
    obtain ⟨c, m⟩ := cm
    rw [step_of_next_eq_some h line again text p hn] at hr
    split at hr
    · cases hr
      exact ⟨rfl, rfl⟩
    · obtain ⟨q, _, hr⟩ := Results.bind_eq_ok.mp hr
      exact sameRoot_settle hr

theorem sameRoot_scan {start : Nat} {s : State} {p : Painting} {e : State × Painting}
    (he : h.scan line again text start s p = .ok e) : e.1.SameRoot s := by
  induction start, s, p using scan.induct h line again text with
  | case1 start s p d hs =>
    rw [scan_of_error hs] at he
    cases he
  | case2 start s p s' p' hs =>
    rw [scan_of_done hs] at he
    cases he
    exact sameRoot_step hs
  | case3 start s p i s' p' hs ih =>
    rw [scan_of_next hs] at he
    exact (ih he).trans (sameRoot_step hs)

theorem sameRoot_paintLine {l : List Char} {s : State} {e : State × Painting}
    (he : h.paintLine line l s = .ok e) : e.1.SameRoot s := by
  unfold paintLine at he
  obtain ⟨⟨stay, start, q⟩, _, he⟩ := Results.bind_eq_ok.mp he
  have hs := sameRoot_scan (s := { s.atLineStart with frames := stay.reverse }) he
  exact hs

theorem sameRoot_paintLines : ∀ {lines : List (List Char)} {number : Nat} {s : State} {e : State × List Painting},
    h.paintLines number s lines = .ok e → e.1.SameRoot s
  | [], _, _, _, he => by
    cases he
    exact ⟨rfl, rfl⟩
  | l :: lines, _, _, _, he => by
    rw [paintLines] at he
    obtain ⟨⟨t, p⟩, hp, he⟩ := Results.bind_eq_ok.mp he
    obtain ⟨⟨t', ps⟩, hps, he⟩ := Results.bind_eq_ok.mp he
    cases he
    exact (sameRoot_paintLines hps).trans (sameRoot_paintLine hp)

/-! ## Numbers and offsets -/

/-- The line number of an error counts from the number of the first line. -/
theorem paintLines_add (k : Nat) : ∀ (lines : List (List Char)) (number : Nat) (s : State),
    h.paintLines (k + number) s lines =
      (h.paintLines number s lines).mapError fun e => e.atLine (k + e.line)
  | [], _, _ => rfl
  | l :: lines, number, s => by
    have hnumber := paintLine_numbered h (k + number) number l s
    cases hp : h.paintLine number l s with
    | error e =>
      rw [hp] at hnumber
      rw [paintLines_cons_of_error hp, paintLines_cons_of_error hnumber]
      show Except.error (e.atLine (k + number)) = Except.error (e.atLine (k + e.line))
      rw [line_of_paintLine_eq_error hp]
    | ok e =>
      obtain ⟨t, p⟩ := e
      rw [hp] at hnumber
      rw [paintLines_cons_of_ok hp, paintLines_cons_of_ok hnumber, Nat.add_assoc, paintLines_add k lines,
        Results.mapError_map]

theorem line_of_paintLines_eq_error {lines : List (List Char)} {number : Nat} {s : State} {e : TokenizeError}
    (he : h.paintLines number s lines = .error e) : number ≤ e.line := by
  obtain ⟨before, l, after, t, ps, _, _, he⟩ := paintLines_eq_error.mp he
  rw [line_of_paintLine_eq_error he]
  exact Nat.le_add_right _ _

end Highlighter

def Token.shift (offset : Nat) (t : Token) : Token :=
  { t with offset := offset + t.offset }

namespace Highlighter

theorem tokensOf_shift (explain : Bool) (k : Nat) : ∀ (lines : List (List Char)) (ps : List Painting) (offset : Nat),
    tokensOf explain (k + offset) lines ps = (tokensOf explain offset lines ps).map (·.map (Token.shift k))
  | [], _, _ => rfl
  | _ :: _, [], _ => rfl
  | line :: lines, p :: ps, offset => by
    have hrest := tokensOf_shift explain k lines ps (offset + Text.byteCount line + 1)
    rw [tokensOf, tokensOf, List.map_cons, ← hrest]
    congr 1
    · unfold lineTokens
      rw [List.map_map]
      refine List.map_congr_left fun s _ => ?_
      show token line (k + offset) explain s = Token.shift k (token line offset explain s)
      unfold token Token.shift
      simp only [Nat.add_assoc]
    · simp only [Nat.add_assoc]

theorem tokensOf_append (explain : Bool) : ∀ (lines lines' : List String) (ps ps' : List Painting) (offset : Nat),
    lines.length = ps.length →
    tokensOf explain offset ((lines ++ lines').map String.toList) (ps ++ ps') =
      tokensOf explain offset (lines.map String.toList) ps ++
        tokensOf explain (Text.lineStart lines lines.length + offset) (lines'.map String.toList) ps'
  | [], lines', [], ps', offset, _ => by
    rw [List.length_nil, Text.lineStart_zero, Nat.zero_add]
    rfl
  | [], _, _ :: _, _, _, hl => by cases hl
  | _ :: _, _, [], _, _, hl => by cases hl
  | line :: lines, lines', p :: ps, ps', offset, hl => by
    have hrest := tokensOf_append explain lines lines' ps ps' (offset + Text.byteCount line.toList + 1) (Nat.succ.inj hl)
    have hstart : Text.lineStart (line :: lines) (line :: lines).length + offset =
        Text.lineStart lines lines.length + (offset + Text.byteCount line.toList + 1) := by
      have hend : Text.lineEnd.utf8Size = 1 := rfl
      rw [List.length_cons, Text.lineStart_succ, Text.byteCount_toList, hend]
      omega
    rw [hstart, List.cons_append, List.cons_append, List.map_cons, List.map_cons, tokensOf, tokensOf, hrest,
      List.cons_append]

/-! ## Two texts -/

def stateAfter (h : Highlighter) (text : String) : Except TokenizeError State :=
  (h.paintLines 1 (.start 0 [h.grammar.scopeName]) ((Text.lines text).map String.toList)).map (·.1)

variable {h : Highlighter} {before after : String} {explain : Bool}

theorem length_paintLines {lines : List (List Char)} {number : Nat} {s : State} {e : State × List Painting}
    (he : h.paintLines number s lines = .ok e) : lines.length = e.2.length :=
  (tiling_paintLines he).length_eq

theorem length_lines_of_tokenize {u : TokenizedText} (hu : h.tokenize before explain = .ok u) :
    u.lines.length = (Text.lines before).length := by
  rw [tokenize_eq] at hu
  obtain ⟨e, he, rfl⟩ := Results.map_eq_ok.mp hu
  rw [length_tokensOf explain 0 (length_paintLines he), List.length_map]

theorem tokenize_append_of_error (after : String) {e : TokenizeError} (he : h.tokenize before explain = .error e) :
    h.tokenize (before ++ "\n" ++ after) explain = .error e := by
  rw [tokenize_eq, Results.map_eq_error] at he ⊢
  rw [Text.lines_append, List.map_append]
  exact paintLines_append_of_error _ he

theorem tokenize_append_of_ok (after : String) {s : State} {ps : List Painting}
    (hb : h.paintLines 1 (.start 0 [h.grammar.scopeName]) ((Text.lines before).map String.toList) = .ok (s, ps)) :
    h.tokenize (before ++ "\n" ++ after) explain =
      ((h.paintLines 1 s ((Text.lines after).map String.toList)).mapError
        fun e => e.atLine ((Text.lines before).length + e.line)).map fun e =>
          ⟨tokensOf explain 0 ((Text.lines before).map String.toList) ps ++
            (tokensOf explain 0 ((Text.lines after).map String.toList) e.2).map
              (·.map (Token.shift (before.utf8ByteSize + 1)))⟩ := by
  have hlength : (Text.lines before).length = ps.length := by
    have := length_paintLines hb
    rw [List.length_map] at this
    exact this
  have hstart : Text.lineStart (Text.lines before) (Text.lines before).length = before.utf8ByteSize + 1 := by
    rw [← Text.utf8ByteSize_unlines (Text.lines_ne_nil before), Text.unlines_lines]
    rfl
  rw [tokenize_eq, Text.lines_append]
  rw [List.map_append, paintLines_append_of_ok _ hb, List.length_map, Nat.add_comm 1, paintLines_add, ← List.map_append,
    Results.map_map]
  congr 1
  funext e
  show TokenizedText.mk _ = _
  rw [tokensOf_append explain _ _ _ _ _ hlength, hstart, tokensOf_shift]

theorem take_of_tokenize_append {u v : TokenizedText} (hu : h.tokenize before explain = .ok u)
    (hv : h.tokenize (before ++ "\n" ++ after) explain = .ok v) : v.lines.take u.lines.length = u.lines := by
  rw [tokenize_eq] at hu
  obtain ⟨⟨s, ps⟩, hb, rfl⟩ := Results.map_eq_ok.mp hu
  rw [tokenize_append_of_ok after hb] at hv
  obtain ⟨e, _, rfl⟩ := Results.map_eq_ok.mp hv
  exact List.take_left

theorem line_of_tokenize_append {u : TokenizedText} {e : TokenizeError} (hu : h.tokenize before explain = .ok u)
    (he : h.tokenize (before ++ "\n" ++ after) explain = .error e) : u.lines.length < e.line := by
  rw [length_lines_of_tokenize hu]
  rw [tokenize_eq] at hu
  obtain ⟨⟨s, ps⟩, hb, rfl⟩ := Results.map_eq_ok.mp hu
  rw [tokenize_append_of_ok after hb, Results.map_eq_error] at he
  obtain ⟨d, hd, rfl⟩ := Results.mapError_eq_error.mp he
  have := line_of_paintLines_eq_error hd
  rw [TokenizeError.line_atLine]
  omega

theorem tokenize_append_of_closed {s : State} {u : TokenizedText} (hs : h.stateAfter before = .ok s)
    (hclosed : s.frames = []) (hu : h.tokenize before explain = .ok u) :
    h.tokenize (before ++ "\n" ++ after) explain =
      ((h.tokenize after explain).mapError fun e => e.atLine (u.lines.length + e.line)).map fun v =>
        ⟨u.lines ++ v.lines.map (·.map (Token.shift (before.utf8ByteSize + 1)))⟩ := by
  obtain ⟨⟨t, ps⟩, hb, rfl⟩ := Results.map_eq_ok.mp hs
  have hroot : t = .start 0 [h.grammar.scopeName] := (sameRoot_paintLines hb).eq_start hclosed
  have hlength := length_lines_of_tokenize hu
  rw [tokenize_eq, hb] at hu
  cases hu
  rw [tokenize_append_of_ok after hb, hroot, tokenize_eq, Results.mapError_map, Results.map_map, hlength]
  rfl

/-- A text that comes after a line end leaves what is before it as it is, be it tokens or
an error; and where no region is open at the line end, it is tokenized as if on its own. -/
theorem tokenize_append (h : Highlighter) (before after : String) (explain : Bool) :
    (∀ e, h.tokenize before explain = .error e → h.tokenize (before ++ "\n" ++ after) explain = .error e) ∧
    (∀ u, h.tokenize before explain = .ok u → u.lines.length = (Text.lines before).length ∧
      ((∃ v, h.tokenize (before ++ "\n" ++ after) explain = .ok v ∧ v.lines.take u.lines.length = u.lines) ∨
        ∃ e, h.tokenize (before ++ "\n" ++ after) explain = .error e ∧ u.lines.length < e.line)) ∧
    ∀ s u, h.stateAfter before = .ok s → s.frames = [] → h.tokenize before explain = .ok u →
      h.tokenize (before ++ "\n" ++ after) explain =
        ((h.tokenize after explain).mapError fun e => e.atLine (u.lines.length + e.line)).map fun v =>
          ⟨u.lines ++ v.lines.map (·.map (Token.shift (before.utf8ByteSize + 1)))⟩ := by
  refine ⟨fun e he => tokenize_append_of_error after he, ?_, ?_⟩
  · intro u hu
    refine ⟨length_lines_of_tokenize hu, ?_⟩
    cases hv : h.tokenize (before ++ "\n" ++ after) explain with
    | error e => exact .inr ⟨e, rfl, line_of_tokenize_append hu hv⟩
    | ok v => exact .inl ⟨v, rfl, take_of_tokenize_append hu hv⟩
  · intro s u hs hclosed hu
    exact tokenize_append_of_closed hs hclosed hu

end Highlighter

theorem Brackets.stateAfter_text : highlighter.stateAfter "ab(\n)b" = .ok (.start 0 ["g"]) := by
  unfold Highlighter.stateAfter
  rw [lines_text]
  show (highlighter.paintLines 1 (.start 0 ["g"]) _).map _ = _
  rw [paintLines_text]
  rfl

/-- Twice the same, where the bracket is closed. -/
theorem tokenize_append_brackets : Brackets.highlighter.tokenize ("ab(\n)b" ++ "\n" ++ "ab(\n)b") true =
    .ok ⟨Brackets.tokens.lines ++ Brackets.tokens.lines.map (·.map (Token.shift 7))⟩ := by
  have happend := (Highlighter.tokenize_append Brackets.highlighter "ab(\n)b" "ab(\n)b" true).2.2 (.start 0 ["g"])
    Brackets.tokens Brackets.stateAfter_text rfl Brackets.tokenize_text
  rw [happend, Brackets.tokenize_text]
  rfl

end Highlight
