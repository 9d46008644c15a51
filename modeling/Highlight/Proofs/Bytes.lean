import Highlight.Proofs.Carets
import Highlight.Proofs.Offsets
import Highlight.Proofs.Runs

/-!
# The scopes of bytes

What has been painted of a line stays as it is, whatever is painted on. So the scopes that a
step of a run paints with are those of the tokens in the end, byte by byte.
-/

namespace Highlight

def TokenizedText.scopesAt (t : TokenizedText) (index byte : Nat) : List String :=
  Token.scopesAt ((t.line? index).getD []) byte

/-! ## Paint stays -/

namespace Painting

def At (p : Painting) (x : Nat) (scopes : List String) : Prop :=
  ∃ s ∈ p.stretches, s.span.start ≤ x ∧ x < s.span.stop ∧ s.scopes = scopes

variable {p : Painting} {x : Nat} {scopes : List String}

theorem At.paint (h : p.At x scopes) (i j : Nat) (scopes' : List String) : (p.paint i j scopes').At x scopes := by
  unfold Painting.paint
  simp only
  split
  · rename_i hlt
    obtain ⟨s, hs, h1, h2, h3⟩ := h
    unfold add
    cases hp : p.stretches with
    | nil =>
      rw [hp] at hs
      cases hs
    | cons last before =>
      rw [hp] at hs
      simp only
      split
      · rename_i hmerge
        rcases List.mem_cons.mp hs with rfl | hs
        · have hmerge := hmerge.1
          exact ⟨_, List.mem_cons_self .., h1, by simp only at hmerge hlt ⊢; omega, h3⟩
        · exact ⟨s, List.mem_cons_of_mem _ hs, h1, h2, h3⟩
      · exact ⟨s, List.mem_cons_of_mem _ hs, h1, h2, h3⟩
  · exact h

theorem at_law (x : Nat) (scopes : List String) : Law (fun _ p => p.At x scopes) fun _ => True where
  paint _ _ h := h.paint _ _ _
  named _ _ _ := trivial

/-- The line of this length is painted without a gap up to a position, and no further. -/
structure UpTo (n i : Nat) (p : Painting) : Prop where
  painted : p.Painted i
  covered : p.covered ≤ i
  length : p.length = n

theorem upTo_blank (n : Nat) : UpTo n 0 (blank n) :=
  ⟨painted_blank n, Nat.le_refl _, rfl⟩

theorem covered_paint_le {i j : Nat} (hp : p.covered ≤ i) (hij : i ≤ j) (scopes : List String) :
    (p.paint i j scopes).covered ≤ j := by
  unfold paint
  simp only
  split
  · rw [covered_add]
    exact Nat.min_le_left _ _
  · exact Nat.le_trans hp hij

theorem upTo_law (n : Nat) : Law (UpTo n) fun _ => True where
  paint hij _ h := ⟨h.painted.paint _ _, covered_paint_le h.covered hij _, (length_paint ..).trans h.length⟩
  named _ _ _ := trivial

/-- What is painted on has the scopes that it is painted with. -/
theorem UpTo.at_paint {n i j : Nat} (h : UpTo n i p) (hi : i ≤ x) (hj : x < j) (hn : x < n) (scopes : List String) :
    (p.paint i j scopes).At x scopes := by
  have hcovered := h.covered
  have hlength := h.length
  have hfree : max i p.covered = i := Nat.max_eq_left hcovered
  unfold Painting.paint
  simp only [hfree]
  rw [if_pos (by omega)]
  unfold add
  cases hp : p.stretches with
  | nil => exact ⟨_, List.mem_singleton_self _, hi, by simp only; omega, rfl⟩
  | cons last before =>
    have htiled := hp ▸ h.painted.tiled
    obtain ⟨hlast, _, hlt, _⟩ := htiled.of_cons
    simp only
    split
    · rename_i hmerge
      exact ⟨_, List.mem_cons_self .., by simp only; omega, by simp only; omega, hmerge.2⟩
    · exact ⟨_, List.mem_cons_self .., hi, by simp only; omega, rfl⟩

theorem Tiling.stop_le_of_mem {l : List Stretch} {i : Nat} (h : Tiling l i) {s : Stretch} (hs : s ∈ l) :
    s.span.stop ≤ i := by
  induction h with
  | nil => cases hs
  | cons _ hlt _ ih =>
    rcases List.mem_cons.mp hs with rfl | hs
    · exact Nat.le_refl _
    · exact Nat.le_trans (ih hs) (Nat.le_of_lt hlt)

end Painting

/-! ## Tokens of stretches -/

namespace Token

theorem scopesAt_append (us : List Token) : ∀ (ts : List Token) (b : Nat),
    scopesAt (ts ++ us) b =
      if b < (spelling ts).utf8ByteSize then scopesAt ts b else scopesAt us (b - (spelling ts).utf8ByteSize)
  | [], b => by simp [spelling]
  | t :: ts, b => by
    rw [List.cons_append, scopesAt, scopesAt, spelling_cons, String.utf8ByteSize_append]
    by_cases h : b < t.content.utf8ByteSize
    · rw [if_pos h, if_pos h, if_pos (by omega)]
    · rw [if_neg h, if_neg h, scopesAt_append us ts, Nat.sub_sub]
      by_cases h' : b - t.content.utf8ByteSize < (spelling ts).utf8ByteSize
      · rw [if_pos h', if_pos (by omega)]
      · rw [if_neg h', if_neg (by omega)]

end Token

def Progress.painting : Progress → Painting
  | done _ p => p
  | next _ _ p => p

namespace Highlighter

variable {line : List Char} {offset : Nat}

theorem size_token (line : List Char) (offset : Nat) (explain : Bool) {s : Stretch} (h : s.span.start ≤ s.span.stop) :
    Text.offsetAt line s.span.start + (token line offset explain s).content.utf8ByteSize =
      Text.offsetAt line s.span.stop := by
  rw [Painting.content_token, Text.offsetAt_eq, Text.offsetAt_eq, ← Painting.take_append_extract line h,
    ← Text.utf8ByteSize_ofList, ← Text.utf8ByteSize_ofList, String.ofList_append, String.utf8ByteSize_append]

theorem scopesAt_of_mem_stretches {l : List Stretch} {i : Nat} (h : Painting.Tiling l i) {s : Stretch} (hs : s ∈ l) {b : Nat}
    (h1 : Text.offsetAt line s.span.start ≤ b) (h2 : b < Text.offsetAt line s.span.stop) :
    Token.scopesAt (l.reverse.map (token line offset true)) b = s.scopes := by
  induction h with
  | nil => cases hs
  | @cons last before hb hlt _ ih =>
    have hsize : (Token.spelling (before.reverse.map (token line offset true))).utf8ByteSize =
        Text.offsetAt line last.span.start := by
      rw [Painting.spelling_stretches offset true hb, Text.utf8ByteSize_ofList, ← Text.offsetAt_eq]
    rw [List.reverse_cons, List.map_append, Token.scopesAt_append, hsize]
    rcases List.mem_cons.mp hs with rfl | hs
    · have hcontent := size_token line offset true (Nat.le_of_lt hlt)
      rw [if_neg (by omega), List.map_singleton, Token.scopesAt_of_lt (by omega), Painting.scopes_token]
    · have hstop := Text.offsetAt_mono line (hb.stop_le_of_mem hs)
      rw [if_pos (by omega)]
      exact ih hs

theorem scopesAt_of_at {p : Painting} {i x y : Nat} {scopes : List String} (ht : Painting.Tiling p.stretches i)
    (hp : ∀ z, x ≤ z → z < y → z < line.length → p.At z scopes) {b : Nat} (h1 : Text.offsetAt line x ≤ b)
    (h2 : b < Text.offsetAt line y) : Token.scopesAt (lineTokens line offset true p) b = scopes := by
  obtain ⟨z, hxz, hzy, hz, h3, h4⟩ := Text.exists_position h1 h2
  obtain ⟨s, hs, hstart, hstop, rfl⟩ := hp z hxz hzy hz
  exact scopesAt_of_mem_stretches ht hs (Nat.le_trans (Text.offsetAt_mono line hstart) h3)
    (Nat.lt_of_lt_of_le h4 (Text.offsetAt_mono line hstop))

/-! ## Steps -/

section

variable {h : Highlighter} {number : Nat} {again : Retokenize} {text : Array Char} {n i : Nat} {s : State} {p : Painting}
  {m : Match} {c : Choice} {r : Progress}

/-- A step paints its match and settles how to go on; what has been painted stays. -/
theorem painting_of_step (hn : h.next text i s = some (c, m)) {captures : List (Capture Nat)} {scopes : List String}
    (hpainted : s.painted? text i m c = some (captures, scopes)) (hr : h.step number again text i s p = .ok r) :
    ∃ q, (p.paint i m.span.start s.scopes).addMatch again text m captures scopes = .ok q ∧
      h.settle number text i s m q c = .ok r ∧ ∀ x scopes', q.At x scopes' → r.painting.At x scopes' := by
  rw [step_of_next_eq_some h number again text p hn, hpainted] at hr
  obtain ⟨q, hq, hr⟩ := Results.bind_eq_ok.mp hr
  refine ⟨q, hq, hr, fun x scopes' hx => ?_⟩
  cases c with
  | leave f below =>
    simp only [settle, Except.ok.injEq] at hr
    subst hr
    split
    · exact hx.paint _ _ _
    · exact hx
  | piece name captures =>
    simp only [settle, Except.ok.injEq] at hr
    subst hr
    split
    · exact hx.paint _ _ _
    · exact hx
  | enter id r =>
    obtain ⟨closing, _, rfl⟩ := Results.map_eq_ok.mp hr
    exact hx

theorem at_before (hp : p.UpTo n i) (hn : h.next text i s = some (c, m))
    {captures : List (Capture Nat)} {scopes : List String} (hpainted : s.painted? text i m c = some (captures, scopes))
    {depth : Nat} (hr : h.step number (h.scanWithin number depth) text i s p = .ok r) {x : Nat} (h1 : i ≤ x)
    (h2 : x < m.span.start) (hx : x < n) : r.painting.At x s.scopes := by
  obtain ⟨q, hq, _, hkeep⟩ := painting_of_step hn hpainted hr
  obtain ⟨_, _, h3, h4⟩ := next_eq_some hn
  exact hkeep x _ (Painting.keeps_addMatch (Painting.at_law x s.scopes)
    (keeps_scanWithin (Painting.at_law x s.scopes) h number depth) h3 h4 trivial (hp.at_paint h1 h2 hx s.scopes) hq)

theorem at_rest (hp : p.UpTo n i) (hsize : n ≤ text.size) (hn : h.next text i s = none)
    (hr : h.step number again text i s p = .ok r) {x : Nat} (h1 : i ≤ x) (hx : x < n) : r.painting.At x s.scopes := by
  rw [step_of_next_eq_none h number again text p hn] at hr
  cases hr
  exact hp.at_paint h1 (Nat.lt_of_lt_of_le hx hsize) hx s.scopes

end

/-! ## Points of a run that comes to its end -/

variable {h : Highlighter} {lines : List (List Char)} {k i : Nat} {l : List Char} {s : State} {p : Painting}

theorem upTo_of_advances {a : Point} (hl : lines[k]? = some l) (hadv : h.Advances lines a (.scan k i s p))
    (ha : ∀ j s' p', a = .scan k j s' p' → j ≤ (Text.withEnd l).size ∧ Painting.UpTo l.length j p') :
    i ≤ (Text.withEnd l).size ∧ Painting.UpTo l.length i p := by
  cases hadv with
  | @check _ _ l' s' stay _ hk hc =>
    rw [hl, Option.some.injEq] at hk
    subst hk
    have hc := keeps_checkConditions (Painting.upTo_law l.length)
      (keeps_scanWithin (Painting.upTo_law l.length) h (k + 1) (h.depthIn l)) (Nat.zero_le _) (fun _ _ => trivial)
      (Painting.upTo_blank l.length) hc
    exact ⟨hc.2.1, hc.2.2⟩
  | @step _ j _ l' s' _ p' _ hk hs =>
    rw [hl, Option.some.injEq] at hk
    subst hk
    obtain ⟨hj, hp⟩ := ha j s' p' rfl
    exact ⟨(step_eq_next hs).2.1, (keeps_step (Painting.upTo_law l.length)
      (keeps_scanWithin (Painting.upTo_law l.length) h (k + 1) (h.depthIn l)) hj s'.over_true hp hs).2⟩

/-- Where a line is being scanned it is painted up to there. -/
theorem upTo_of_reaches (hl : lines[k]? = some l) (hpt : h.Reaches lines (.scan k i s p)) :
    i ≤ (Text.withEnd l).size ∧ Painting.UpTo l.length i p := by
  generalize hb : Point.scan k i s p = b at hpt
  induction hpt generalizing i s p with
  | refl => cases hb
  | tail _ hadv ih =>
    subst hb
    exact upTo_of_advances hl hadv fun j s' p' ha => ih ha.symm

theorem mapped_lines {text : String} (hl : ((Text.lines text).map String.toList)[k]? = some l) :
    ∃ line, (Text.lines text)[k]? = some line ∧ line.toList = l := by
  rwa [List.getElem?_map, Option.map_eq_some_iff] at hl

variable {text : String} {t : TokenizedText}

/-- Where a text is tokenized in the end, so is the rest of a line that is being scanned, and the
line has the tokens that it is painted with. -/
theorem scan_of_reaches (ht : h.tokenize text true = .ok t) (hl : ((Text.lines text).map String.toList)[k]? = some l)
    (hpt : h.Reaches ((Text.lines text).map String.toList) (.scan k i s p)) :
    ∃ e, h.scan (k + 1) (h.againIn k l) (Text.withEnd l) i s p = .ok e ∧
      (∃ offset, t.line? k = some (lineTokens l offset true e.2)) ∧ Painting.Tiling e.2.stretches l.length ∧
      (k + 1 = ((Text.lines text).map String.toList).length → h.stateAfter text = .ok e.1) := by
  obtain ⟨s₀, ps, l', hb, hl', hscan⟩ := begun_of_reaches hpt
  rw [hl, Option.some.injEq] at hl'
  subst hl'
  rw [tokenize_eq] at ht
  obtain ⟨⟨s', qs⟩, hpaint, rfl⟩ := Results.map_eq_ok.mp ht
  obtain ⟨hk, hget⟩ := List.getElem?_eq_some_iff.mp hl
  have hsplit : (Text.lines text).map String.toList =
      ((Text.lines text).map String.toList).take k ++ l :: ((Text.lines text).map String.toList).drop (k + 1) := by
    rw [← hget, List.getElem_cons_drop, List.take_append_drop]
  have hlength : (((Text.lines text).map String.toList).take k).length = k := List.length_take_of_le (Nat.le_of_lt hk)
  have hpaint' := hpaint
  rw [hsplit, paintLines_append_of_ok _ hb, hlength, Nat.add_comm 1 k] at hpaint'
  obtain ⟨⟨s'', rs⟩, hrest, he⟩ := Results.map_eq_ok.mp hpaint'
  rw [paintLines] at hrest
  obtain ⟨⟨s₁, q⟩, hq, hrest⟩ := Results.bind_eq_ok.mp hrest
  obtain ⟨⟨s₂, rs'⟩, hrs, hrest⟩ := Results.bind_eq_ok.mp hrest
  cases hrest
  cases he
  refine ⟨(s₁, q), hscan.symm.trans hq, ?_, tiling_paintLine hq, ?_⟩
  · have hps : ps.length = k := (length_paintLines hb).symm.trans hlength
    have hall : (ps ++ q :: rs').length = ((Text.lines text).map String.toList).length := (length_paintLines hpaint).symm
    have hsome : k < (tokensOf true 0 ((Text.lines text).map String.toList) (ps ++ q :: rs')).length := by
      rw [length_tokensOf true 0 hall.symm]
      exact hk
    obtain ⟨line, q', hline, hq', htokens⟩ := getElem?_tokensOf true (List.getElem?_eq_getElem hsome)
    have hq'' : (ps ++ q :: rs')[k]? = some q := by
      rw [List.getElem?_append_right (Nat.le_of_eq hps), hps, Nat.sub_self]
      rfl
    obtain ⟨line', hline', hlist⟩ := mapped_lines hl
    rw [hline, Option.some.injEq] at hline'
    rw [hq'', Option.some.injEq] at hq'
    subst hline' hq' hlist
    exact ⟨_, (List.getElem?_eq_getElem hsome).trans (congrArg some htokens)⟩
  · intro hlast
    rw [hlast, List.drop_length] at hrs
    cases hrs
    unfold stateAfter
    rw [hpaint]
    rfl

theorem step_of_reaches (ht : h.tokenize text true = .ok t) (hl : ((Text.lines text).map String.toList)[k]? = some l)
    (hpt : h.Reaches ((Text.lines text).map String.toList) (.scan k i s p)) :
    ∃ r, h.step (k + 1) (h.againIn k l) (Text.withEnd l) i s p = .ok r := by
  obtain ⟨e, he, _⟩ := scan_of_reaches ht hl hpt
  cases hs : h.step (k + 1) (h.againIn k l) (Text.withEnd l) i s p with
  | error d =>
    rw [scan_of_error hs] at he
    cases he
  | ok r => exact ⟨r, rfl⟩

/-- The scopes that a step has painted with are those of the tokens. -/
theorem scopesAt_of_step (ht : h.tokenize text true = .ok t) (hl : ((Text.lines text).map String.toList)[k]? = some l)
    (hpt : h.Reaches ((Text.lines text).map String.toList) (.scan k i s p)) {r : Progress}
    (hr : h.step (k + 1) (h.againIn k l) (Text.withEnd l) i s p = .ok r) {x y : Nat} {scopes : List String}
    (hp : ∀ z, x ≤ z → z < y → z < l.length → r.painting.At z scopes) {b : Nat} (h1 : Text.offsetAt l x ≤ b)
    (h2 : b < Text.offsetAt l y) : t.scopesAt k b = scopes := by
  obtain ⟨e, he, ⟨offset, htokens⟩, htiling, _⟩ := scan_of_reaches ht hl hpt
  unfold TokenizedText.scopesAt
  rw [htokens, Option.getD_some]
  refine scopesAt_of_at htiling (fun z hxz hzy hz => ?_) h1 h2
  have hat := hp z hxz hzy hz
  cases r with
  | done s' p' =>
    rw [scan_of_done hr, Except.ok.injEq] at he
    exact he ▸ hat
  | next j s' p' =>
    rw [scan_of_next hr] at he
    exact (keeps_scan (Painting.at_law z scopes) (keeps_scanWithin (Painting.at_law z scopes) h (k + 1) (h.depthIn l))
      (step_eq_next hr).2.1 s'.over_true hat he).2

end Highlighter

end Highlight
