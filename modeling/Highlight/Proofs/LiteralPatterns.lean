import Highlight.Proofs.Literals
import Highlight.Regex.Search

/-!
# The engine reads characters that stand for themselves

A character that is no metacharacter starts nothing else, and no mark stands for a kind, a
condition, a group or a code after a backslash. So a pattern that spells a text is read as that
text, and runs of such characters are not split, since nothing in them repeats.
-/

namespace Highlight

open Literal (Spells isMark isMeta)

/-! ## Reading -/

namespace Regex

theorem of_isMark {c : Char} (hc : isMark c = true) :
    kindOf? c = none ∧ anchorOf? c = none ∧ c.isDigit = false ∧ c ≠ 'k' ∧ controlOf? c = none ∧ c ≠ 'x' ∧ c ≠ 'u' ∧
      Text.isOctal c = false :=
  Literal.forall_mark (fun c => kindOf? c = none ∧ anchorOf? c = none ∧ c.isDigit = false ∧ c ≠ 'k' ∧ controlOf? c = none ∧
    c ≠ 'x' ∧ c ≠ 'u' ∧ Text.isOctal c = false) (by decide) hc

theorem escapedCode_of_isMark {c : Char} (hc : isMark c = true) (rest : List Char) :
    escapedCode c rest = .ok (c.toNat, 0) := by
  obtain ⟨_, _, _, _, hcontrol, hx, hu, hoctal⟩ := of_isMark hc
  unfold escapedCode byteEscape
  simp [hcontrol, hx, hu, hoctal]

theorem literalStart_of_isMark (g : Groups) {c : Char} (hc : isMark c = true) (rest : List Char) :
    literalStart g '\\' (c :: rest) = .ok (some (c, 1)) := by
  obtain ⟨hkind, hanchor, hdigit, hk, _⟩ := of_isMark hc
  have hletter : letterPart? c = none := by
    unfold letterPart?
    rw [hkind, hanchor]
    rfl
  have hgroup : groupNumber? g c rest = none := by
    unfold groupNumber?
    simp [hdigit]
  have hnamed : namedReference? c rest = none := by
    unfold namedReference?
    rw [if_neg hk]
  unfold literalStart
  simp only [hletter, hgroup, hnamed, escapedCode_of_isMark hc]
  simp [Except.map]

theorem ne_of_isMeta {c d : Char} (hc : isMeta c = false) (hd : isMeta d = true) : c ≠ d := by
  rintro rfl
  rw [hc] at hd
  cases hd

theorem literalStart_of_isMeta (g : Groups) {c : Char} (hc : isMeta c = false) (rest : List Char) :
    literalStart g c rest = .ok (some (c, 0)) := by
  have hne {d : Char} (hd : isMeta d = true) : c ≠ d := ne_of_isMeta hc hd
  have hquantifier : quantifier? c rest = .ok none := by
    unfold quantifier?
    split
    · exact absurd rfl (hne (d := '*') (by decide))
    · exact absurd rfl (hne (d := '+') (by decide))
    · exact absurd rfl (hne (d := '?') (by decide))
    · exact absurd rfl (hne (d := '\x7b') (by decide))
    · rfl
  unfold literalStart
  split
  · exact absurd rfl (hne (d := '(') (by decide))
  · exact absurd rfl (hne (d := ')') (by decide))
  · exact absurd rfl (hne (d := '[') (by decide))
  · exact absurd rfl (hne (d := '|') (by decide))
  · exact absurd rfl (hne (d := '.') (by decide))
  · exact absurd rfl (hne (d := '^') (by decide))
  · exact absurd rfl (hne (d := '$') (by decide))
  · exact absurd rfl (hne (d := '\\') (by decide))
  · rw [hquantifier]
    rfl

/-- What starts a pattern that spells a text is its first character. -/
theorem literalStart_of_spells (g : Groups) {w t : List Char} {c : Char} (hw : Spells w (c :: t)) (tail : List Char) :
    ∃ d rest n w', w ++ tail = d :: rest ∧ literalStart g d rest = .ok (some (c, n)) ∧ rest.drop n = w' ++ tail ∧
      Spells w' t ∧ d ≠ '(' ∧ d ≠ ')' ∧ d ≠ '|' ∧ d ≠ '?' ∧ d ≠ '*' := by
  cases hw with
  | @plain _ w _ hc hw =>
    exact ⟨c, w ++ tail, 0, w, rfl, literalStart_of_isMeta g hc _, rfl, hw, ne_of_isMeta hc rfl, ne_of_isMeta hc rfl,
      ne_of_isMeta hc rfl, ne_of_isMeta hc rfl, ne_of_isMeta hc rfl⟩
  | @escaped _ w _ hc hw =>
    exact ⟨'\\', c :: (w ++ tail), 1, w, rfl, literalStart_of_isMark g hc _, rfl, hw, by decide, by decide, by decide,
      by decide, by decide⟩

theorem skipIgnored_of_ne {c : Char} (hc : c ≠ '(') (cs : List Char) :
    skipIgnored false .nothing (c :: cs) = .ok (c :: cs) := by
  rw [skipIgnored]
  · simp
  · intro cs' he
    exact absurd he hc

/-- Where a pattern, or a group in it, ends. -/
def Ends (tail : List Char) : Prop :=
  tail = [] ∨ ∃ cs, tail = ')' :: cs

theorem Ends.skipIgnored {tail : List Char} (h : Ends tail) : skipIgnored false .nothing tail = .ok tail := by
  rcases h with rfl | ⟨cs, rfl⟩
  · rfl
  · exact skipIgnored_of_ne (by decide) cs

theorem literals_of_ends (g : Groups) {tail : List Char} (h : Ends tail) :
    ∃ hle, literals false g tail = .ok ([], ⟨tail, hle⟩) := by
  refine ⟨Nat.le_refl _, ?_⟩
  rw [literals]
  split
  · rename_i e he
    rw [h.skipIgnored] at he
    cases he
  · rename_i he
    rw [h.skipIgnored] at he
    cases he
    rfl
  · rename_i c rest he
    rw [h.skipIgnored] at he
    cases he
    rcases h with h | ⟨cs, h⟩
    · cases h
    · cases h
      rfl

theorem literals_of_spells (g : Groups) {tail : List Char} (h : Ends tail) : ∀ {w t : List Char}, Spells w t →
    ∃ hle, literals false g (w ++ tail) = .ok (t, ⟨tail, hle⟩)
  | _, [], .nil => literals_of_ends g h
  | w, c :: t, hw => by
    obtain ⟨d, rest, n, w', hcons, hstart, hdrop, hw', hopen, _⟩ := literalStart_of_spells g hw tail
    have ih := literals_of_spells g h hw'
    rw [← hdrop] at ih
    obtain ⟨hle, ih⟩ := ih
    have hskip : skipIgnored false .nothing (d :: rest) = .ok (d :: rest) := skipIgnored_of_ne hopen rest
    have hlength : tail.length ≤ (d :: rest).length := by
      rw [List.length_drop] at hle
      rw [List.length_cons]
      omega
    rw [hcons]
    refine ⟨hlength, ?_⟩
    rw [literals]
    split
    · rename_i e he
      rw [hskip] at he
      cases he
    · rename_i he
      rw [hskip] at he
      cases he
    · rename_i c' rest' he
      rw [hskip] at he
      cases he
      simp only [hstart, ih]

theorem quantified_of_ends {tail : List Char} (h : Ends tail) (whole : Bool) (part : Regex) :
    ∃ hle, quantified false whole part tail = .ok ([part], ⟨tail, hle⟩) := by
  refine ⟨Nat.le_refl _, ?_⟩
  rw [quantified]
  split
  · rename_i e he
    rw [h.skipIgnored] at he
    cases he
  · rename_i he
    rw [h.skipIgnored] at he
    cases he
    rfl
  · rename_i c rest he
    rw [h.skipIgnored] at he
    cases he
    rcases h with h | ⟨cs, h⟩
    · cases h
    · cases h
      rfl

theorem readSequence_of_ends (g : Groups) {tail : List Char} (h : Ends tail) :
    ∃ hle, readSequence .plain g tail = .ok ([], g, ⟨tail, hle⟩) := by
  refine ⟨Nat.le_refl _, ?_⟩
  rw [readSequence]
  split
  · rename_i e he
    rw [Options.plain, h.skipIgnored] at he
    cases he
  · rename_i he
    rw [Options.plain, h.skipIgnored] at he
    cases he
    rfl
  · rename_i c rest he
    rw [Options.plain, h.skipIgnored] at he
    cases he
    rcases h with h | ⟨cs, h⟩
    · cases h
    · cases h
      rfl

/-- A text that is not empty is read as one part. -/
theorem readSequence_of_spells (g : Groups) {tail w t : List Char} {c : Char} (h : Ends tail) (hw : Spells w (c :: t)) :
    ∃ hle, readSequence .plain g (w ++ tail) = .ok ([text (c :: t) false], g, ⟨tail, hle⟩) := by
  obtain ⟨d, rest, n, w', hcons, hstart, hdrop, hw', hopen, hclose, hbar, _⟩ := literalStart_of_spells g hw tail
  have hskip : skipIgnored false .nothing (d :: rest) = .ok (d :: rest) := skipIgnored_of_ne hopen rest
  have hliterals := literals_of_spells g h hw'
  rw [← hdrop] at hliterals
  obtain ⟨hle, hliterals⟩ := hliterals
  obtain ⟨hquantified, hpart⟩ := quantified_of_ends h false (text (c :: t) false)
  obtain ⟨hsequence, hend⟩ := readSequence_of_ends g h
  rw [hcons]
  have hlength : tail.length ≤ (d :: rest).length := by
    rw [List.length_drop] at hle
    rw [List.length_cons]
    omega
  refine ⟨hlength, ?_⟩
  rw [readSequence]
  split
  · rename_i e he
    rw [Options.plain, hskip] at he
    cases he
  · rename_i he
    rw [Options.plain, hskip] at he
    cases he
  · rename_i c' rest' he
    rw [Options.plain, hskip] at he
    cases he
    rw [if_neg (by simp [hclose, hbar]), if_neg hopen]
    simp only [hstart]
    have hlit : literals Options.plain.extended g (rest.drop n) = .ok (t, ⟨tail, hle⟩) := hliterals
    simp only [hlit]
    rw [readRest]
    have hq : quantified Options.plain.extended false (text (c :: t) Options.plain.anyCase) tail =
      .ok ([text (c :: t) false], ⟨tail, hquantified⟩) := hpart
    simp only [hq, hend]
    rfl

theorem readAlternatives_of_readSequence {g g' : Groups} {cs tail : List Char} {parts : List Regex} (h : Ends tail)
    (hs : ∃ hle, readSequence .plain g cs = .ok (parts, g', ⟨tail, hle⟩)) :
    ∃ hle, readAlternatives .plain g cs = .ok (ofParts parts, g', ⟨tail, hle⟩) := by
  obtain ⟨hle, hs⟩ := hs
  refine ⟨hle, ?_⟩
  rw [readAlternatives]
  simp only [hs]
  rcases h with rfl | ⟨rest, rfl⟩
  · rfl
  · rfl

theorem readAlternatives_of_spells (g : Groups) {tail w t : List Char} {c : Char} (h : Ends tail)
    (hw : Spells w (c :: t)) :
    ∃ hle, readAlternatives .plain g (w ++ tail) = .ok (text (c :: t) false, g, ⟨tail, hle⟩) :=
  readAlternatives_of_readSequence h (readSequence_of_spells g h hw)

theorem readAlternatives_group (g : Groups) {w t : List Char} {c : Char} (hw : Spells w (c :: t)) :
    ∃ hle, readAlternatives .plain g ('(' :: (w ++ [')'])) =
      .ok (group (g.count + 1) (text (c :: t) false), g.add.close (g.count + 1) (text (c :: t) false), ⟨[], hle⟩) := by
  have hends : Ends [')'] := .inr ⟨[], rfl⟩
  have hinner := readAlternatives_of_spells g.add hends hw
  obtain ⟨hquantified, hpart⟩ := quantified_of_ends (.inl rfl) false (group (g.count + 1) (text (c :: t) false))
  obtain ⟨hsequence, hend⟩ := readSequence_of_ends (g.add.close (g.count + 1) (text (c :: t) false)) (.inl rfl)
  obtain ⟨d, rest, n, _, hcons, _, _, _, _, _, _, hask, hstar⟩ := literalStart_of_spells g hw [')']
  rw [hcons] at hinner ⊢
  obtain ⟨hle, hinner⟩ := hinner
  have hskip : skipIgnored false .nothing ('(' :: d :: rest) = .ok ('(' :: d :: rest) := by
    rw [skipIgnored]
    · rfl
    · intro cs _ he
      exact absurd (List.cons.inj he).1 hask
  have hstart : groupStart .plain (d :: rest) = .ok (.capture, d :: rest) := by
    unfold groupStart
    split
    all_goals simp_all
  suffices hsequence : ∃ hle, readSequence .plain g ('(' :: d :: rest) =
      .ok ([group (g.count + 1) (text (c :: t) false)], g.add.close (g.count + 1) (text (c :: t) false), ⟨[], hle⟩) from
    readAlternatives_of_readSequence (.inl rfl) hsequence
  refine ⟨Nat.zero_le _, ?_⟩
  rw [readSequence]
  split
  · rename_i e he
    rw [Options.plain, hskip] at he
    cases he
  · rename_i he
    rw [Options.plain, hskip] at he
    cases he
  · rename_i c' rest' he
    rw [Options.plain, hskip] at he
    cases he
    rw [if_neg (by decide), if_pos rfl]
    split
    · rename_i e he
      rw [hstart] at he
      cases he
    · rename_i start body he
      rw [hstart] at he
      cases he
      have hin : readAlternatives (GroupStart.capture.optionsIn .plain) (GroupStart.capture.enter g) (d :: rest) =
        .ok (text (c :: t) false, g.add, ⟨[')'], hle⟩) := hinner
      simp only [hin]
      rw [readRest]
      have hq : quantified Options.plain.extended GroupStart.capture.isWhole (GroupStart.capture.wrap g (text (c :: t) false)) [] =
        .ok ([group (g.count + 1) (text (c :: t) false)], ⟨[], hquantified⟩) := hpart
      have he : readSequence .plain (GroupStart.capture.leave g g.add (text (c :: t) false)) [] =
        .ok ([], g.add.close (g.count + 1) (text (c :: t) false), ⟨[], hsequence⟩) := hend
      simp only [hq, he]
      rfl

end Regex

namespace Pattern

theorem regexOf_of_readAlternatives {source : String} {cs : List Char} {r : Regex} {g : Regex.Groups}
    (hcs : source.toList = cs) (h : ∃ hle, Regex.readAlternatives .plain .none cs = .ok (r, g, ⟨[], hle⟩))
    (hhighest : g.highest ≤ g.count) (huseless : r.hasUselessGroup = false) : regexOf source = .ok (r, g.count) := by
  subst hcs
  obtain ⟨hle, h⟩ := h
  unfold regexOf
  simp only [h, if_neg (Nat.not_lt.mpr hhighest), huseless]
  rfl

def literal (w t : List Char) : Pattern :=
  ⟨.ofList w, .text t, 0⟩

def literalGroup (w t : List Char) : Pattern :=
  ⟨"(" ++ .ofList w ++ ")", .group 1 (.text t), 1⟩

theorem ofSource_of_spells {w t : List Char} (hw : Spells w t) : ofSource (.ofList w) = .ok (literal w t) := by
  have hread : ∃ hle, Regex.readAlternatives .plain .none w = .ok (.text t false, .none, ⟨[], hle⟩) := by
    cases t with
    | nil =>
      cases hw
      exact Regex.readAlternatives_of_readSequence (.inl rfl) (Regex.readSequence_of_ends .none (.inl rfl))
    | cons c t =>
      have hread := Regex.readAlternatives_of_spells .none (.inl rfl) hw
      rw [List.append_nil] at hread
      exact hread
  unfold ofSource
  rw [regexOf_of_readAlternatives String.toList_ofList hread (Nat.le_refl _) rfl]
  rfl

theorem ofSource_group {w t : List Char} (ht : t ≠ []) (hw : Spells w t) :
    ofSource ("(" ++ .ofList w ++ ")") = .ok (literalGroup w t) := by
  obtain ⟨c, t, rfl⟩ := List.exists_cons_of_ne_nil ht
  have hread := Regex.readAlternatives_group .none hw
  have hlist : ("(" ++ String.ofList w ++ ")").toList = '(' :: (w ++ [')']) := by
    rw [String.toList_append, String.toList_append, @String.toList_ofList w]
    rfl
  unfold ofSource
  rw [regexOf_of_readAlternatives hlist hread (Nat.zero_le _) rfl]
  rfl

/-! ## Matching -/

theorem matchAt_literal (w t : List Char) (text : Array Char) (start i : Nat) :
    (literal w t).matchAt text start i = (Regex.Subject.after? ⟨text, start⟩ t i).map fun j => ⟨⟨i, j⟩, []⟩ := by
  unfold matchAt literal
  simp only [Regex.run]
  cases Regex.Subject.after? ⟨text, start⟩ t i with
  | none => rfl
  | some j => rfl

theorem matchAt_literalGroup (w t : List Char) (text : Array Char) (start i : Nat) :
    (literalGroup w t).matchAt text start i = ((literal w t).matchAt text start i).map Match.inGroup := by
  rw [matchAt_literal]
  unfold matchAt literalGroup
  simp only [Regex.run]
  cases Regex.Subject.after? ⟨text, start⟩ t i with
  | none => rfl
  | some j => rfl

theorem prepends_literal (c : Char) (w w' t : List Char) :
    Engine.backtracking.Prepends c (literal w t) (literal w' (c :: t)) := by
  intro text start i
  show (literal w' (c :: t)).matchAt text start i =
    if text[i]? = some c then ((literal w t).matchAt text start (i + 1)).map (·.startingAt i) else none
  rw [matchAt_literal, matchAt_literal, Regex.Subject.after?, apply_ite (Option.map _)]
  congr 1
  rw [Option.map_map]
  rfl

end Pattern

theorem Engine.readsLiterals_backtracking : backtracking.ReadsLiterals where
  empty := ⟨_, Pattern.ofSource_of_spells .nil, fun text start i _ => Pattern.matchAt_literal [] [] text start i⟩
  plain {c w t q} hc hw hq := by
    cases hq.symm.trans (Pattern.ofSource_of_spells hw)
    exact ⟨_, Pattern.ofSource_of_spells (.plain hc hw), Pattern.prepends_literal c w _ t⟩
  escaped {c w t q} hc hw hq := by
    cases hq.symm.trans (Pattern.ofSource_of_spells hw)
    exact ⟨_, Pattern.ofSource_of_spells (.escaped hc hw), Pattern.prepends_literal c w _ t⟩
  grouped {w t q} ht hw hq := by
    cases hq.symm.trans (Pattern.ofSource_of_spells hw)
    exact ⟨_, Pattern.ofSource_group ht hw, fun text start i => Pattern.matchAt_literalGroup ..⟩

end Highlight
