import Highlight.Audit.Run
import Highlight.Proofs.Bytes
import Highlight.Proofs.Composition
import Highlight.Proofs.Trimming

/-!
# What an audit reports

The audit filters tokens, but what it promises is about characters: each visible one is in a
token with a scope that says what it is, or it is reported once. This rests on how tokens lie in
a text: they follow one another, and what is in none of them is line ends, which are blank.
-/

namespace Highlight

open Unicode (isBlank)

/-! ## Tokens in a text -/

namespace Token

/-- Tokens that lie one after another in some characters from an offset on. Only line ends are
in none of them. -/
inductive Laid : Nat → List Token → List Char → Prop
  | nil (offset : Nat) : Laid offset [] []
  | token {t : Token} {ts : List Token} {cs : List Char} : Laid t.span.stop ts cs →
      Laid t.offset (t :: ts) (t.content.toList ++ cs)
  | lineEnd {offset : Nat} {ts : List Token} {cs : List Char} : Laid (offset + 1) ts cs →
      Laid offset ts (Text.lineEnd :: cs)

theorem laid_line : ∀ {tokens ts : List Token} {offset : Nat} {cs : List Char}, Follow offset tokens →
    Laid (offset + (spelling tokens).utf8ByteSize) ts cs → Laid offset (tokens ++ ts) ((spelling tokens).toList ++ cs)
  | [], _, _, _, _, h => h
  | t :: tokens, ts, offset, cs, ⟨ho, _, hf⟩, h => by
    subst ho
    rw [spelling_cons, String.toList_append, List.append_assoc]
    refine .token (laid_line hf ?_)
    rw [spelling_cons, String.utf8ByteSize_append, ← Nat.add_assoc] at h
    exact h

theorem laid_lines : ∀ {ls : List String} {tss : List (List Token)} {offset : Nat}, tss.length = ls.length →
    (∀ i line, ls[i]? = some line → ∃ tokens, tss[i]? = some tokens ∧ spelling tokens = line ∧
      Follow (offset + Text.lineStart ls i) tokens) →
    Laid offset tss.flatten (Text.unlines ls).toList
  | [], [], offset, _, _ => .nil offset
  | [_], [tokens], offset, _, h => by
    obtain ⟨_, htokens, rfl, hf⟩ := h 0 _ rfl
    cases htokens
    have hline : Laid offset (tokens ++ []) ((spelling tokens).toList ++ []) := laid_line hf (.nil _)
    unfold Text.unlines
    simpa using hline
  | _ :: m :: ls, tokens :: tss, offset, hlength, h => by
    obtain ⟨_, htokens, rfl, hf⟩ := h 0 _ rfl
    cases htokens
    rw [Text.unlines_cons_cons, String.toList_append, String.toList_append, List.append_assoc, List.flatten_cons]
    refine laid_line hf (.lineEnd (laid_lines (Nat.succ.inj hlength) fun i line hl => ?_))
    obtain ⟨tokens', htokens', hspell, hf'⟩ := h (i + 1) line hl
    refine ⟨tokens', htokens', hspell, ?_⟩
    rw [Text.lineStart_succ] at hf'
    have hoffset : offset + ((spelling tokens).utf8ByteSize + Text.lineEnd.utf8Size + Text.lineStart (m :: ls) i) =
        offset + (spelling tokens).utf8ByteSize + 1 + Text.lineStart (m :: ls) i := by
      have : Text.lineEnd.utf8Size = 1 := rfl
      omega
    rwa [hoffset] at hf'

theorem laid_of_tokenize {h : Highlighter} {source : String} {explain : Bool} {t : TokenizedText}
    (ht : h.tokenize source explain = .ok t) : Laid 0 t.lines.flatten source.toList := by
  have hlaid : Laid 0 t.lines.flatten (Text.unlines (Text.lines source)).toList := by
    refine laid_lines (Highlighter.length_lines_of_tokenize ht) fun i line hl => ?_
    rw [Nat.zero_add]
    exact Highlighter.exists_tokens_of_tokenize ht hl
  rwa [Text.unlines_lines] at hlaid

def StandsAfter (t : Token) (front cs : List Char) : Prop :=
  t.offset = Text.byteCount front ∧ ∃ back, cs = front ++ t.content.toList ++ back

namespace Laid

variable {offset : Nat} {ts : List Token} {cs : List Char}

theorem exists_front (h : Laid offset ts cs) {t : Token} (ht : t ∈ ts) :
    ∃ front back, cs = front ++ t.content.toList ++ back ∧ t.offset = offset + Text.byteCount front := by
  induction h with
  | nil => cases ht
  | @token u us cs _ ih =>
    rcases List.mem_cons.mp ht with rfl | ht
    · exact ⟨[], cs, rfl, rfl⟩
    · obtain ⟨front, back, rfl, ho⟩ := ih ht
      refine ⟨u.content.toList ++ front, back, by simp only [List.append_assoc], ?_⟩
      rw [ho, ← Text.utf8ByteSize_ofList, ← Text.utf8ByteSize_ofList, String.ofList_append, String.utf8ByteSize_append,
        String.ofList_toList, ← Nat.add_assoc]
      rfl
  | lineEnd _ ih =>
    obtain ⟨front, back, rfl, ho⟩ := ih ht
    exact ⟨Text.lineEnd :: front, back, rfl, by rw [ho, Nat.add_assoc]; rfl⟩

theorem exists_standsAfter (h : Laid 0 ts cs) {t : Token} (ht : t ∈ ts) : ∃ front, t.StandsAfter front cs := by
  obtain ⟨front, back, hcut, ho⟩ := h.exists_front ht
  exact ⟨front, by rw [ho, Nat.zero_add], back, hcut⟩

theorem ordered (h : Laid offset ts cs) : ts.Pairwise fun t u => t.span.stop ≤ u.offset := by
  induction h with
  | nil => exact .nil
  | token hl ih =>
    refine .cons (fun u hu => ?_) ih
    obtain ⟨_, _, _, ho⟩ := hl.exists_front hu
    omega
  | lineEnd _ ih => exact ih

/-- What is no line end is in a token. -/
theorem exists_of_ne_lineEnd (h : Laid offset ts cs) {i : Nat} {c : Char} (hi : cs[i]? = some c) (hc : c ≠ Text.lineEnd) :
    ∃ t ∈ ts, t.offset ≤ offset + Text.offsetAt cs i ∧ offset + Text.offsetAt cs i < t.span.stop := by
  induction h generalizing i with
  | nil => cases hi
  | @token t us cs _ ih =>
    have hstop : t.span.stop = t.offset + Text.byteCount t.content.toList := by
      rw [Text.byteCount_toList]
      rfl
    by_cases hlt : i < t.content.toList.length
    · have hlt' := Text.offsetAt_lt (l := t.content.toList ++ cs) hlt (by rw [List.length_append]; omega)
      rw [Text.offsetAt_length] at hlt'
      exact ⟨t, List.mem_cons_self .., by omega, by omega⟩
    · obtain ⟨k, rfl⟩ := Nat.exists_eq_add_of_le (Nat.not_lt.mp hlt)
      rw [List.getElem?_append_right (by omega), Nat.add_sub_cancel_left] at hi
      obtain ⟨u, hu, h1, h2⟩ := ih hi
      rw [Text.offsetAt_length_add]
      exact ⟨u, List.mem_cons_of_mem _ hu, by omega, by omega⟩
  | lineEnd _ ih =>
    cases i with
    | zero =>
      cases hi
      exact absurd rfl hc
    | succ i =>
      obtain ⟨u, hu, h1, h2⟩ := ih hi
      have hone : Text.lineEnd.utf8Size = 1 := rfl
      rw [Text.offsetAt, hone]
      exact ⟨u, hu, by omega, by omega⟩

end Laid

def Covers (t : Token) (source : String) (i : Nat) : Prop :=
  t.offset ≤ Text.offsetAt source.toList i ∧ Text.offsetAt source.toList i < t.span.stop

def visiblePlace (source : String) (t : Token) : Span :=
  let start := Text.positionAt source.toList t.offset + (t.content.toList.takeWhile isBlank).length
  ⟨start, start + (Text.trim t.content.toList).length⟩

section

variable {t : Token} {source : String} {front : List Char} {i : Nat}

theorem offsetAt_of_standsAfter (h : t.StandsAfter front source.toList) :
    Text.offsetAt source.toList front.length = t.offset ∧
      Text.offsetAt source.toList (front.length + t.content.toList.length) = t.span.stop := by
  obtain ⟨ho, back, hcut⟩ := h
  rw [hcut, List.append_assoc, Text.offsetAt_length, Text.offsetAt_length_add, Text.offsetAt_length,
    Text.byteCount_toList, ← ho]
  exact ⟨rfl, rfl⟩

theorem covers_iff (h : t.StandsAfter front source.toList) (hi : i < source.toList.length) :
    t.Covers source i ↔ front.length ≤ i ∧ i < front.length + t.content.toList.length := by
  obtain ⟨hstart, hstop⟩ := offsetAt_of_standsAfter h
  unfold Covers
  rw [← hstop, ← hstart, Text.offsetAt_le_iff hi, Text.offsetAt_lt_iff hi]

/-- The content of a token begins with blanks, and ends with blanks, around what is visible. -/
theorem exists_cut (h : t.StandsAfter front source.toList) :
    ∃ tail back, source.toList = front ++ t.content.toList.takeWhile isBlank ++ Text.trim t.content.toList ++ (tail ++ back) ∧
      t.content.toList = t.content.toList.takeWhile isBlank ++ Text.trim t.content.toList ++ tail ∧
      (∀ c ∈ tail, isBlank c = true) ∧
      t.visiblePlace source = ⟨(front ++ t.content.toList.takeWhile isBlank).length,
        (front ++ t.content.toList.takeWhile isBlank).length + (Text.trim t.content.toList).length⟩ := by
  obtain ⟨ho, back, hcut⟩ := h
  obtain ⟨tail, htrim, htail⟩ := Text.cut_trim t.content.toList
  refine ⟨tail, back, ?_, htrim, htail, ?_⟩
  · rw [hcut]
    conv_lhs => rw [htrim]
    simp only [List.append_assoc]
  · unfold visiblePlace
    rw [hcut, ho, List.append_assoc, Text.positionAt_byteCount, List.length_append]

theorem extract_visiblePlace (h : t.StandsAfter front source.toList) :
    source.toList.extract (t.visiblePlace source).start (t.visiblePlace source).stop = Text.trim t.content.toList := by
  obtain ⟨tail, back, hcut, _, _, hplace⟩ := exists_cut h
  rw [hplace, hcut]
  exact Text.extract_append _ _ _

theorem within_visiblePlace (h : t.StandsAfter front source.toList) :
    front.length ≤ (t.visiblePlace source).start ∧
      (t.visiblePlace source).stop ≤ front.length + t.content.toList.length ∧
      (t.visiblePlace source).stop ≤ source.toList.length := by
  obtain ⟨tail, back, hcut, htrim, _, hplace⟩ := exists_cut h
  have hlength := congrArg List.length hcut
  have hcontent := congrArg List.length htrim
  simp only [List.length_append] at hlength hcontent
  rw [hplace]
  simp only [List.length_append]
  omega

/-- A visible character of a token is in what is left of it when it is trimmed. -/
theorem mem_visiblePlace (h : t.StandsAfter front source.toList) {c : Char} (hc : source.toList[i]? = some c)
    (hvisible : isBlank c = false) (hi : front.length ≤ i) (hi' : i < front.length + t.content.toList.length) :
    (t.visiblePlace source).start ≤ i ∧ i < (t.visiblePlace source).stop := by
  obtain ⟨tail, back, hcut, htrim, htail, hplace⟩ := exists_cut h
  rw [hplace]
  have hcontent := congrArg List.length htrim
  simp only [List.length_append] at hcontent ⊢
  have hblank (cs : List Char) (hcs : ∀ d ∈ cs, isBlank d = true) (k : Nat) : cs[k]? ≠ some c := by
    intro hk
    rw [hcs c (List.mem_of_getElem? hk)] at hvisible
    cases hvisible
  have hlead := hblank (t.content.toList.takeWhile isBlank) fun d hd => List.mem_takeWhile_imp hd
  rw [hcut] at hc
  simp only [List.append_assoc] at hc
  rw [List.getElem?_append_right hi] at hc
  -- it is not among the blanks in front, nor among those behind
  by_cases hlt : i - front.length < (t.content.toList.takeWhile isBlank).length
  · rw [List.getElem?_append_left hlt] at hc
    exact absurd hc (hlead _)
  · rw [List.getElem?_append_right (Nat.not_lt.mp hlt)] at hc
    refine ⟨by omega, ?_⟩
    by_cases hin : i - front.length - (t.content.toList.takeWhile isBlank).length < (Text.trim t.content.toList).length
    · omega
    · rw [List.getElem?_append_right (Nat.not_lt.mp hin), List.getElem?_append_left (by omega)] at hc
      exact absurd hc (hblank tail htail _)

end

end Token

/-! ## Classified characters -/

namespace Audit

def Meaningful (root scope : String) : Prop :=
  scope ≠ root ∧ ¬metaStart.toList <+: scope.toList

theorem isMeaningful_iff {root scope : String} : isMeaningful root scope = true ↔ Meaningful root scope := by
  unfold isMeaningful Meaningful
  rw [Bool.and_eq_true, bne_iff_ne, Bool.not_eq_true', ← List.isPrefixOf_iff_prefix, Bool.not_eq_true]

instance (root scope : String) : Decidable (Meaningful root scope) :=
  decidable_of_iff _ isMeaningful_iff

end Audit

def Token.Unclear (root : String) (t : Token) : Prop :=
  (∃ c ∈ t.content.toList, isBlank c = false) ∧ ¬∃ scope ∈ t.scopes, Audit.Meaningful root scope

instance (root : String) (t : Token) : Decidable (t.Unclear root) :=
  inferInstanceAs (Decidable (_ ∧ _))

def Text.VisibleAt (source : String) (i : Nat) : Prop :=
  ∃ c, source.toList[i]? = some c ∧ isBlank c = false

def TokenizedText.Classifies (t : TokenizedText) (root source : String) (i : Nat) : Prop :=
  ∃ token ∈ t.lines.flatten, token.Covers source i ∧ ∃ scope ∈ token.scopes, Audit.Meaningful root scope

theorem Token.trim_ne_nil {root : String} {t : Token} (h : t.Unclear root) : Text.trim t.content.toList ≠ [] := by
  obtain ⟨⟨c, hc, hblank⟩, _⟩ := h
  intro hnil
  rw [Text.trim_eq_nil_iff.mp hnil c hc] at hblank
  cases hblank

/-- What is left of a token that is trimmed begins with a visible character. -/
theorem Token.visibleAt_start {root source : String} {t : Token} {front : List Char} (h : t.Unclear root)
    (hstands : t.StandsAfter front source.toList) :
    (t.visiblePlace source).start < (t.visiblePlace source).stop ∧
      Text.VisibleAt source (t.visiblePlace source).start := by
  obtain ⟨c, rest, htrim⟩ := List.exists_cons_of_ne_nil (trim_ne_nil h)
  have hhead : (Text.trim t.content.toList).head? = some c := by
    rw [htrim]
    rfl
  have hblank := Text.isBlank_head_trim hhead
  obtain ⟨tail, back, hcut, _, _, hplace⟩ := exists_cut hstands
  rw [hplace, htrim]
  refine ⟨Nat.lt_add_of_pos_right (Nat.succ_pos _), c, ?_, hblank⟩
  rw [hcut, htrim, List.append_assoc, List.getElem?_append_right (Nat.le_refl _), Nat.sub_self]
  rfl

namespace Audit

theorem isUnscoped_eq (root : String) (t : Token) : isUnscoped root t = decide (t.Unclear root) := by
  have hvisible : Text.trim t.content.toList ≠ [] ↔ ∃ c ∈ t.content.toList, isBlank c = false := by
    rw [Ne, Text.trim_eq_nil_iff]
    simp
  rw [Bool.eq_iff_iff, decide_eq_true_iff]
  unfold isUnscoped Token.Unclear
  rw [← hvisible]
  simp [isMeaningful_iff]

/-- What an audit of a text reports, for its tokens. -/
structure FileAudit.Complete (a : FileAudit) (root source : String) (t : TokenizedText) : Prop where
  clean : a.isClean = true ↔ ∀ i, Text.VisibleAt source i → t.Classifies root source i
  tokens : a.unscoped = (t.lines.flatten.filter fun token => token.Unclear root).map fun token => Text.trimmed token.content
  trimmed : ∀ s ∈ a.unscoped, s ≠ "" ∧ (∀ c, s.toList.head? = some c → isBlank c = false) ∧
    ∀ c, s.toList.getLast? = some c → isBlank c = false
  /-- What is reported stands at places one after another. -/
  places : ∃ places : List Span, places.Pairwise (fun r s => r.stop ≤ s.start) ∧
    a.unscoped = places.map (fun s => String.ofList (source.toList.extract s.start s.stop)) ∧
    (∀ s ∈ places, s.start < s.stop ∧ s.stop ≤ source.toList.length) ∧
    (∀ s ∈ places, ∀ i, s.start ≤ i → i < s.stop → ¬t.Classifies root source i) ∧
    ∀ i, Text.VisibleAt source i → ¬t.Classifies root source i → ∃ s ∈ places, s.start ≤ i ∧ i < s.stop

section

variable {root source : String} {t : TokenizedText}

theorem unscopedOf_eq : unscopedOf root t =
    (t.lines.flatten.filter fun token => token.Unclear root).map fun token => Text.trimmed token.content := by
  unfold unscopedOf
  rw [show isUnscoped root = fun token => decide (token.Unclear root) from funext (isUnscoped_eq root)]

theorem exists_of_mem_unscopedOf {s : String} (hs : s ∈ unscopedOf root t) :
    ∃ token ∈ t.lines.flatten, token.Unclear root ∧ s = Text.trimmed token.content := by
  rw [unscopedOf_eq] at hs
  obtain ⟨token, hm, rfl⟩ := List.mem_map.mp hs
  obtain ⟨hm, hunclear⟩ := List.mem_filter.mp hm
  exact ⟨token, hm, of_decide_eq_true hunclear, rfl⟩

variable (hlaid : Token.Laid 0 t.lines.flatten source.toList)
include hlaid

theorem eq_of_covers {token token' : Token} (hm : token ∈ t.lines.flatten) (hm' : token' ∈ t.lines.flatten) {i : Nat}
    (hc : token.Covers source i) (hc' : token'.Covers source i) : token = token' := by
  have hapart : t.lines.flatten.Pairwise fun u v => ¬(u.Covers source i ∧ v.Covers source i) :=
    hlaid.ordered.imp fun hle h => absurd (Nat.lt_of_lt_of_le h.1.2 hle) (Nat.not_lt.mpr h.2.1)
  have : Std.Symm fun u v : Token => ¬(u.Covers source i ∧ v.Covers source i) := ⟨fun _ _ h h' => h h'.symm⟩
  by_contra hne
  exact hapart.forall hm hm' hne ⟨hc, hc'⟩

theorem not_classifies {token : Token} (hm : token ∈ t.lines.flatten) (hunclear : token.Unclear root) {i : Nat}
    (h1 : (token.visiblePlace source).start ≤ i) (h2 : i < (token.visiblePlace source).stop) :
    ¬t.Classifies root source i := by
  obtain ⟨front, hstands⟩ := hlaid.exists_standsAfter hm
  obtain ⟨hstart, hstop, hlength⟩ := Token.within_visiblePlace hstands
  have hcovers : token.Covers source i := (Token.covers_iff hstands (by omega)).mpr ⟨by omega, by omega⟩
  -- no other token has this character
  rintro ⟨token', hm', hcovers', hclear⟩
  rw [← eq_of_covers hlaid hm hm' hcovers hcovers'] at hclear
  exact hunclear.2 hclear

theorem exists_unclear {i : Nat} (hvisible : Text.VisibleAt source i) (hnot : ¬t.Classifies root source i) :
    ∃ token ∈ t.lines.flatten, token.Unclear root ∧
      (token.visiblePlace source).start ≤ i ∧ i < (token.visiblePlace source).stop := by
  obtain ⟨c, hc, hblank⟩ := hvisible
  have hne : c ≠ Text.lineEnd := by
    rintro rfl
    revert hblank
    decide
  obtain ⟨token, hm, hcovers⟩ := hlaid.exists_of_ne_lineEnd hc hne
  simp only [Nat.zero_add] at hcovers
  obtain ⟨front, hstands⟩ := hlaid.exists_standsAfter hm
  have hi : i < source.toList.length := (List.getElem?_eq_some_iff.mp hc).1
  obtain ⟨hfront, hend⟩ := (Token.covers_iff hstands hi).mp hcovers
  have hplace := Token.mem_visiblePlace hstands hc hblank hfront hend
  refine ⟨token, hm, ⟨?_, fun hclear => hnot ⟨token, hm, hcovers, hclear⟩⟩, hplace⟩
  -- what is left of the token has a character, so the token has a visible one
  by_contra hnone
  have hnil : Text.trim token.content.toList = [] := Text.trim_eq_nil_iff.mpr fun d hd =>
    (Bool.not_eq_false _).mp fun hd' => hnone ⟨d, hd, hd'⟩
  rw [Token.visiblePlace, hnil] at hplace
  exact Nat.lt_irrefl _ (Nat.lt_of_le_of_lt hplace.1 hplace.2)

theorem pairwise_visiblePlace : t.lines.flatten.Pairwise fun u v =>
    (u.visiblePlace source).stop ≤ (v.visiblePlace source).start := by
  refine List.Pairwise.imp_of_mem ?_ hlaid.ordered
  intro u v hu hv hle
  obtain ⟨front, hu⟩ := hlaid.exists_standsAfter hu
  obtain ⟨front', hv⟩ := hlaid.exists_standsAfter hv
  obtain ⟨_, hstop, _⟩ := Token.within_visiblePlace hu
  obtain ⟨hstart, _, _⟩ := Token.within_visiblePlace hv
  -- otherwise the second token starts at a character of the first one
  by_contra hlt
  have := Text.offsetAt_lt (l := source.toList) (show front'.length < front.length + u.content.toList.length by omega)
    (by omega)
  rw [(Token.offsetAt_of_standsAfter hu).2, (Token.offsetAt_of_standsAfter hv).1] at this
  omega

theorem unscopedOf_eq_nil_iff :
    unscopedOf root t = [] ↔ ∀ i, Text.VisibleAt source i → t.Classifies root source i := by
  constructor
  · intro hnil i hvisible
    by_contra hnot
    obtain ⟨token, hm, hunclear, _⟩ := exists_unclear hlaid hvisible hnot
    rw [unscopedOf_eq, List.map_eq_nil_iff, List.filter_eq_nil_iff] at hnil
    exact hnil token hm (decide_eq_true hunclear)
  · intro hall
    refine List.eq_nil_iff_forall_not_mem.mpr fun s hs => ?_
    obtain ⟨token, hm, hunclear, _⟩ := exists_of_mem_unscopedOf hs
    obtain ⟨front, hstands⟩ := hlaid.exists_standsAfter hm
    obtain ⟨hlt, hvisible⟩ := Token.visibleAt_start hunclear hstands
    exact not_classifies hlaid hm hunclear (Nat.le_refl _) hlt (hall _ hvisible)

theorem complete_unscopedOf (path : String) : FileAudit.Complete ⟨path, unscopedOf root t⟩ root source t := by
  have hplaced {s : Span}
      (hs : s ∈ (t.lines.flatten.filter fun token => token.Unclear root).map (Token.visiblePlace source)) :
      ∃ token ∈ t.lines.flatten, token.Unclear root ∧ token.visiblePlace source = s := by
    obtain ⟨token, hm, rfl⟩ := List.mem_map.mp hs
    obtain ⟨hm, hunclear⟩ := List.mem_filter.mp hm
    exact ⟨token, hm, of_decide_eq_true hunclear, rfl⟩
  refine ⟨List.isEmpty_iff.trans (unscopedOf_eq_nil_iff hlaid), unscopedOf_eq, ?_,
    (t.lines.flatten.filter fun token => token.Unclear root).map (Token.visiblePlace source), ?_, ?_, ?_, ?_, ?_⟩
  · intro s hs
    obtain ⟨token, _, hunclear, rfl⟩ := exists_of_mem_unscopedOf hs
    unfold Text.trimmed
    rw [String.toList_ofList]
    refine ⟨fun he => Token.trim_ne_nil hunclear ?_, fun c => Text.isBlank_head_trim, fun c => Text.isBlank_getLast_trim⟩
    have := congrArg String.toList he
    rwa [String.toList_ofList] at this
  · rw [List.pairwise_map]
    exact (pairwise_visiblePlace hlaid).filter _
  · show unscopedOf root t = _
    rw [unscopedOf_eq, List.map_map]
    refine List.map_congr_left fun token hm => ?_
    obtain ⟨front, hstands⟩ := hlaid.exists_standsAfter (List.mem_filter.mp hm).1
    exact (congrArg String.ofList (Token.extract_visiblePlace hstands)).symm
  · intro s hs
    obtain ⟨token, hm, hunclear, rfl⟩ := hplaced hs
    obtain ⟨front, hstands⟩ := hlaid.exists_standsAfter hm
    exact ⟨(Token.visibleAt_start hunclear hstands).1, (Token.within_visiblePlace hstands).2.2⟩
  · intro s hs i h1 h2
    obtain ⟨token, hm, hunclear, rfl⟩ := hplaced hs
    exact not_classifies hlaid hm hunclear h1 h2
  · intro i hvisible hnot
    obtain ⟨token, hm, hunclear, hplace⟩ := exists_unclear hlaid hvisible hnot
    exact ⟨_, List.mem_map_of_mem (List.mem_filter.mpr ⟨hm, decide_eq_true hunclear⟩), hplace⟩

end

/-! ## Reports -/

theorem foldl_eq_zero_iff : ∀ (files : List FileAudit) (n : Nat),
    files.foldl (fun n file => n + file.unscoped.length) n = 0 ↔ n = 0 ∧ ∀ file ∈ files, file.isClean = true
  | [], n => by simp
  | file :: files, n => by
    have hclean : file.isClean = true ↔ file.unscoped.length = 0 := by
      unfold FileAudit.isClean
      rw [List.isEmpty_iff, List.length_eq_zero_iff]
    rw [List.foldl_cons, foldl_eq_zero_iff files, Nat.add_eq_zero_iff, List.forall_mem_cons, hclean, and_assoc]

theorem Report.exitCode_eq_zero_iff {r : Report} : r.exitCode = 0 ↔ ∀ file ∈ r.files, file.isClean = true := by
  have htotal : r.total = 0 ↔ ∀ file ∈ r.files, file.isClean = true := by
    unfold Report.total
    rw [foldl_eq_zero_iff, eq_self, true_and]
  rw [← htotal]
  unfold exitCode isClean
  by_cases h : r.total = 0
  · simp [h]
  · simp [h]

end Audit

/-- An audit of a text that can be tokenized reports its visible characters that are in no
scope that says what they are, each once, and no other characters but blanks among them. The
exit code of a report tells whether there are any in its files. -/
theorem Audit.auditSource_complete (h : Highlighter) (path source : String) (t : TokenizedText)
    (ht : h.tokenize source true = .ok t) :
    (∃ a, auditSource h path source = .ok a ∧ a.path = path ∧ a.Complete h.grammar.scopeName source t) ∧
    ∀ r : Report, r.exitCode = 0 ↔ ∀ file ∈ r.files, file.isClean = true := by
  refine ⟨⟨⟨path, unscopedOf h.grammar.scopeName t⟩, ?_, rfl, ?_⟩, fun r => Report.exitCode_eq_zero_iff⟩
  · unfold auditSource Highlighter.explain
    rw [ht]
    rfl
  · exact complete_unscopedOf (Token.laid_of_tokenize ht) path

/-- What stands outside of the brackets is reported. -/
theorem auditSource_complete_brackets :
    Audit.auditSource Brackets.highlighter "f" "ab(\n)b" = .ok ⟨"f", ["ab", "b"]⟩ ∧
    Audit.FileAudit.Complete ⟨"f", ["ab", "b"]⟩ "g" "ab(\n)b" Brackets.tokens ∧
    (⟨[⟨"f", ["ab", "b"]⟩]⟩ : Audit.Report).exitCode ≠ 0 := by
  obtain ⟨⟨⟨path, unscoped⟩, haudit, hpath, hcomplete⟩, hreport⟩ :=
    Audit.auditSource_complete Brackets.highlighter "f" "ab(\n)b" Brackets.tokens Brackets.tokenize_text
  have htexts : Audit.unscopedOf "g" Brackets.tokens = ["ab", "b"] := by rfl
  have hunscoped : unscoped = ["ab", "b"] := by
    rw [← htexts, Audit.unscopedOf_eq]
    exact hcomplete.tokens
  subst hpath hunscoped
  refine ⟨haudit, hcomplete, ?_⟩
  rw [Ne, hreport]
  decide

end Highlight
