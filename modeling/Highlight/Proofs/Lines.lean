import Highlight.Proofs.Coverage
import Highlight.Proofs.LineText
import Mathlib.Data.List.Chain

/-!
# Lines and their tokens

Painting the lines of a text is kept apart from making tokens of the paint, so that
the state after some lines can be spoken of. The tokens of a painted line follow one
another from its start to its end.
-/

namespace Highlight

def Token.Follow : Nat → List Token → Prop
  | _, [] => True
  | offset, t :: ts => t.offset = offset ∧ t.content ≠ "" ∧ Follow t.span.stop ts

def Token.spelling (ts : List Token) : String :=
  String.join (ts.map (·.content))

namespace Token

theorem spelling_append (ts us : List Token) : spelling (ts ++ us) = spelling ts ++ spelling us := by
  unfold spelling
  rw [List.map_append, String.join_append]

theorem spelling_cons (t : Token) (ts : List Token) : spelling (t :: ts) = t.content ++ spelling ts := by
  unfold spelling
  rw [List.map_cons, String.join_cons]

theorem follow_append : ∀ {ts us : List Token} {offset : Nat}, Follow offset (ts ++ us) ↔
    Follow offset ts ∧ Follow (offset + (spelling ts).utf8ByteSize) us
  | [], us, offset => by simp [Follow, spelling]
  | t :: ts, us, offset => by
    rw [List.cons_append, Follow, Follow, follow_append, spelling_cons, String.utf8ByteSize_append]
    constructor
    · rintro ⟨ho, hc, hts, hus⟩
      refine ⟨⟨ho, hc, hts⟩, ?_⟩
      rw [← Nat.add_assoc, ← ho]
      exact hus
    · rintro ⟨⟨ho, hc, hts⟩, hus⟩
      refine ⟨ho, hc, hts, ?_⟩
      rw [← Nat.add_assoc, ← ho] at hus
      exact hus

end Token

namespace Painting

open Highlighter (token)

variable {line : List Char}

theorem content_token (line : List Char) (offset : Nat) (explain : Bool) (s : Stretch) :
    (token line offset explain s).content = String.ofList (line.extract s.span.start s.span.stop) := rfl

theorem scopes_token (line : List Char) (offset : Nat) (s : Stretch) : (token line offset true s).scopes = s.scopes := by
  unfold Token.scopes token
  simp

theorem take_append_extract (line : List Char) {i j : Nat} (hij : i ≤ j) :
    line.take i ++ line.extract i j = line.take j := by
  have := List.take_append_drop i (line.take j)
  rw [List.take_take, Nat.min_eq_left hij] at this
  rw [List.extract_eq_drop_take']
  exact this

theorem spelling_stretches (offset : Nat) (explain : Bool) {l : List Stretch} {i : Nat} (h : Tiling l i) :
    Token.spelling (l.reverse.map (token line offset explain)) = String.ofList (line.take i) := by
  induction h with
  | nil => rfl
  | @cons s before _ hlt _ ih =>
    rw [List.reverse_cons, List.map_append, Token.spelling_append, ih, List.map_singleton,
      Token.spelling_cons, content_token, ← take_append_extract line (Nat.le_of_lt hlt), String.ofList_append]
    unfold Token.spelling
    simp

theorem follow_stretches (offset : Nat) (explain : Bool) {l : List Stretch} {i : Nat} (h : Tiling l i)
    (hi : i ≤ line.length) : Token.Follow offset (l.reverse.map (token line offset explain)) := by
  induction h with
  | nil => trivial
  | @cons s before hb hlt _ ih =>
    rw [List.reverse_cons, List.map_append, Token.follow_append, spelling_stretches offset explain hb]
    refine ⟨ih (by omega), ?_, ?_, trivial⟩
    · rw [Text.utf8ByteSize_ofList, ← Text.offsetAt_eq]
      rfl
    · intro he
      have hnil : line.extract s.span.start s.span.stop = [] := by
        have := congrArg String.toList he
        rw [content_token, String.toList_ofList] at this
        exact this
      have hlen := congrArg List.length hnil
      rw [List.extract_eq_drop_take', List.length_drop, List.length_take, List.length_nil] at hlen
      omega

theorem isChain_stretches {l : List Stretch} {i : Nat} (h : Tiling l i) :
    l.reverse.IsChain fun s t => s.scopes ≠ t.scopes := by
  induction h with
  | nil => exact .nil
  | @cons s before _ _ hne ih =>
    rw [List.reverse_cons, List.isChain_append]
    refine ⟨ih, .singleton s, ?_⟩
    intro t ht u hu
    rw [List.getLast?_reverse] at ht
    cases hu
    exact hne t ht

end Painting

namespace Highlighter

/-! ## Lines in order -/

def paintLines (h : Highlighter) (number : Nat) (s : State) :
    List (List Char) → Except TokenizeError (State × List Painting)
  | [] => .ok (s, [])
  | line :: rest => do
    let (s, p) ← h.paintLine number line s
    let (s, ps) ← paintLines h (number + 1) s rest
    return (s, p :: ps)

def tokensOf (explain : Bool) : (offset : Nat) → List (List Char) → List Painting → List (List Token)
  | offset, line :: rest, p :: ps =>
    lineTokens line offset explain p :: tokensOf explain (offset + Text.byteCount line + 1) rest ps
  | _, _, _ => []

variable {h : Highlighter}

theorem tokenizeLines_eq (explain : Bool) : ∀ (lines : List (List Char)) (number offset : Nat) (s : State),
    h.tokenizeLines explain number offset s lines =
      (h.paintLines number s lines).map fun e => tokensOf explain offset lines e.2
  | [], _, _, _ => rfl
  | line :: rest, number, offset, s => by
    rw [tokenizeLines, paintLines]
    cases h.paintLine number line s with
    | error e => rfl
    | ok e =>
      obtain ⟨s', p⟩ := e
      simp only [bind, Except.bind, tokenizeLines_eq explain rest]
      cases h.paintLines (number + 1) s' rest with
      | error e => rfl
      | ok e => rfl

theorem tokenize_eq (text : String) (explain : Bool) :
    h.tokenize text explain =
      (h.paintLines 1 (.start 0 [h.grammar.scopeName]) ((Text.lines text).map String.toList)).map
        fun e => ⟨tokensOf explain 0 ((Text.lines text).map String.toList) e.2⟩ := by
  rw [tokenize, tokenizeLines_eq, Results.map_map]
  rfl

theorem paintLines_cons_of_ok {line : List Char} {number : Nat} {s s' : State} {p : Painting}
    (hp : h.paintLine number line s = .ok (s', p)) (rest : List (List Char)) :
    h.paintLines number s (line :: rest) =
      (h.paintLines (number + 1) s' rest).map fun e => (e.1, p :: e.2) := by
  rw [paintLines, hp]
  simp only [bind, Except.bind]
  cases h.paintLines (number + 1) s' rest with
  | error e => rfl
  | ok e => rfl

theorem paintLines_cons_of_error {line : List Char} {number : Nat} {s : State} {e : TokenizeError}
    (he : h.paintLine number line s = .error e) (rest : List (List Char)) :
    h.paintLines number s (line :: rest) = .error e := by
  rw [paintLines, he]
  rfl

theorem paintLines_append_of_ok (after : List (List Char)) :
    ∀ {before : List (List Char)} {number : Nat} {s s' : State} {ps : List Painting},
      h.paintLines number s before = .ok (s', ps) →
      h.paintLines number s (before ++ after) =
        (h.paintLines (number + before.length) s' after).map fun e => (e.1, ps ++ e.2)
  | [], number, s, s', ps, hb => by
    cases hb
    show h.paintLines number s after = (h.paintLines number s after).map id
    cases h.paintLines number s after with
    | error e => rfl
    | ok e => rfl
  | line :: before, number, s, s', ps, hb => by
    rw [paintLines] at hb
    obtain ⟨⟨t, p⟩, hp, hb⟩ := Results.bind_eq_ok.mp hb
    obtain ⟨⟨t', qs⟩, hq, hb⟩ := Results.bind_eq_ok.mp hb
    cases hb
    rw [List.cons_append, paintLines_cons_of_ok hp, paintLines_append_of_ok after hq, Results.map_map,
      List.length_cons, Nat.add_comm before.length, ← Nat.add_assoc]
    rfl

theorem paintLines_append_of_error (after : List (List Char)) :
    ∀ {before : List (List Char)} {number : Nat} {s : State} {e : TokenizeError},
      h.paintLines number s before = .error e → h.paintLines number s (before ++ after) = .error e
  | line :: before, number, s, e, hb => by
    rw [List.cons_append]
    cases hp : h.paintLine number line s with
    | error d =>
      rw [paintLines_cons_of_error hp] at hb ⊢
      exact hb
    | ok t =>
      rw [paintLines_cons_of_ok hp] at hb ⊢
      rw [paintLines_append_of_error after (Results.map_eq_error.mp hb)]
      rfl

/-- Lines fail as the first of them that fails. -/
theorem paintLines_eq_error : ∀ {lines : List (List Char)} {number : Nat} {s : State} {e : TokenizeError},
    h.paintLines number s lines = .error e ↔
      ∃ before line after s' ps, lines = before ++ line :: after ∧
        h.paintLines number s before = .ok (s', ps) ∧ h.paintLine (number + before.length) line s' = .error e
  | [], number, s, e => by
    constructor
    · intro he
      cases he
    · rintro ⟨before, line, after, _, _, hl, _⟩
      cases before <;> cases hl
  | line :: rest, number, s, e => by
    constructor
    · intro he
      cases hp : h.paintLine number line s with
      | error d =>
        rw [paintLines_cons_of_error hp] at he
        cases he
        exact ⟨[], line, rest, s, [], rfl, rfl, hp⟩
      | ok t =>
        obtain ⟨t, p⟩ := t
        rw [paintLines_cons_of_ok hp] at he
        obtain ⟨before, l, after, t', ps, rfl, hb, hl⟩ := paintLines_eq_error.mp (Results.map_eq_error.mp he)
        refine ⟨line :: before, l, after, t', p :: ps, rfl, ?_, ?_⟩
        · rw [paintLines_cons_of_ok hp, hb]
          rfl
        · rw [List.length_cons, Nat.add_comm before.length, ← Nat.add_assoc]
          exact hl
    · rintro ⟨before, l, after, t, ps, hl, hb, he⟩
      rw [hl, paintLines_append_of_ok _ hb, paintLines_cons_of_error he]
      rfl

theorem tiling_paintLines : ∀ {lines : List (List Char)} {number : Nat} {s : State} {e : State × List Painting},
    h.paintLines number s lines = .ok e →
    List.Forall₂ (fun line p => Painting.Tiling p.stretches line.length) lines e.2
  | [], _, _, _, he => by
    cases he
    exact .nil
  | line :: rest, _, _, _, he => by
    rw [paintLines] at he
    obtain ⟨⟨s, p⟩, hp, he⟩ := Results.bind_eq_ok.mp he
    obtain ⟨⟨s', ps⟩, hps, he⟩ := Results.bind_eq_ok.mp he
    cases he
    exact .cons (tiling_paintLine hp) (tiling_paintLines hps)

theorem length_tokensOf (explain : Bool) : ∀ {lines : List (List Char)} {ps : List Painting} (offset : Nat),
    lines.length = ps.length → (tokensOf explain offset lines ps).length = lines.length
  | [], _, _, _ => rfl
  | _ :: _, [], _, he => by cases he
  | _ :: _, _ :: _, _, he => by
    rw [tokensOf, List.length_cons, length_tokensOf explain _ (Nat.succ.inj he), List.length_cons]

theorem getElem?_tokensOf (explain : Bool) : ∀ {ls : List String} {ps : List Painting} {offset i : Nat}
    {tokens : List Token}, (tokensOf explain offset (ls.map String.toList) ps)[i]? = some tokens →
    ∃ l p, ls[i]? = some l ∧ ps[i]? = some p ∧
      tokens = lineTokens l.toList (offset + Text.lineStart ls i) explain p
  | [], _, _, _, _, he => by cases he
  | _ :: _, [], _, _, _, he => by cases he
  | l :: _, p :: _, _, 0, _, he => by
    cases he
    exact ⟨l, p, rfl, rfl, rfl⟩
  | l :: _, _ :: _, offset, i + 1, _, he => by
    obtain ⟨m, q, hm, hq, ht⟩ := getElem?_tokensOf explain (i := i) he
    refine ⟨m, q, hm, hq, ?_⟩
    rw [ht, Text.lineStart_succ, Text.byteCount_toList]
    congr 1
    have : Text.lineEnd.utf8Size = 1 := rfl
    omega

end Highlighter

end Highlight
