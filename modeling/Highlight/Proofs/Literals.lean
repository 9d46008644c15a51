import Highlight.Regex.Engine
import Highlight.Regex.Literal

/-!
# Characters that stand for themselves

A pattern may be written of characters that mean nothing else and of marks after a backslash.
What an engine is relied on to make of such a pattern is said character by character. In an
escaped text each character that may mean something has a backslash before it, and all of these
are marks, so the pattern matches where the text stands, and nowhere else.
-/

namespace Highlight

namespace Literal

/-- The characters that are not themselves in a pattern. -/
def isMeta (c : Char) : Bool :=
  ['\\', '.', '|', '(', ')', '[', ']', '\x7b', '\x7d', '?', '*', '+', '^', '$'].contains c

def isMark (c : Char) : Bool :=
  c == ' ' || ('!' ≤ c && c ≤ '~' && !c.isAlphanum)

/-- The pattern spells the text. -/
inductive Spells : List Char → List Char → Prop
  | nil : Spells [] []
  | plain {c : Char} {w t : List Char} : isMeta c = false → Spells w t → Spells (c :: w) (c :: t)
  | escaped {c : Char} {w t : List Char} : isMark c = true → Spells w t → Spells ('\\' :: c :: w) (c :: t)

theorem isMark_of_isSpecial {c : Char} (hc : isSpecial c = true) : isMark c = true := by
  have hall : ['\\', '^', '$', '.', '|', '?', '*', '+', '(', ')', '[', ']', '\x7b', '\x7d', '-', '#', ' '].all isMark = true := by
    decide
  exact List.all_eq_true.mp hall c (List.contains_iff_mem.mp hc)

theorem isSpecial_of_isMeta {c : Char} (hc : isMeta c = true) : isSpecial c = true := by
  have hall : ['\\', '.', '|', '(', ')', '[', ']', '\x7b', '\x7d', '?', '*', '+', '^', '$'].all isSpecial = true := by
    decide
  exact List.all_eq_true.mp hall c (List.contains_iff_mem.mp hc)

theorem lt_of_isMark {c : Char} (hc : isMark c = true) : c.toNat < 127 := by
  unfold isMark at hc
  simp only [Bool.or_eq_true, beq_iff_eq, Bool.and_eq_true, decide_eq_true_eq] at hc
  rcases hc with rfl | ⟨⟨_, hle⟩, _⟩
  · decide
  · exact Nat.lt_succ_of_le (UInt32.le_iff_toNat_le.mp hle)

/-- What holds of all marks can be tried. -/
theorem forall_mark (P : Char → Prop) (hall : ∀ n < 127, isMark (Char.ofNat n) = true → P (Char.ofNat n)) {c : Char}
    (hc : isMark c = true) : P c := by
  have h := hall c.toNat (lt_of_isMark hc)
  rw [Char.ofNat_toNat] at h
  exact h hc

theorem reference?_of_isMark {c : Char} (hc : isMark c = true) : (Piece.pair c).reference? = none :=
  forall_mark (fun c => (Piece.pair c).reference? = none) (by decide) hc

theorem toList_escape (t : String) : (escape t).toList = t.toList.flatMap escapeChar :=
  String.toList_ofList

theorem spells_flatMap : ∀ t : List Char, Spells (t.flatMap escapeChar) t
  | [] => .nil
  | c :: t => by
    have ih := spells_flatMap t
    rw [List.flatMap_cons]
    unfold escapeChar
    by_cases hc : isSpecial c = true
    · rw [if_pos hc]
      exact .escaped (isMark_of_isSpecial hc) ih
    · rw [if_neg hc]
      refine .plain ?_ ih
      rw [Bool.eq_false_iff]
      exact mt isSpecial_of_isMeta hc

theorem spells_escape (t : String) : Spells (escape t).toList t.toList := by
  rw [toList_escape]
  exact spells_flatMap t.toList

end Literal

open Literal (Spells escape isMark isMeta)

/-! ## What is relied on -/

def Match.startingAt (m : Match) (i : Nat) : Match :=
  { m with span := ⟨i, m.span.stop⟩ }

def Match.inGroup (m : Match) : Match :=
  { m with captured := some m.span :: m.captured }

def Engine.Prepends (engine : Engine) (c : Char) (q p : Pattern) : Prop :=
  ∀ text start i, engine.matchAt p text start i =
    if text[i]? = some c then (engine.matchAt q text start (i + 1)).map (·.startingAt i) else none

/-- Before a pattern that spells a text, a character that is no metacharacter, or a mark after a
backslash, stands for itself, and the pattern in parentheses matches the same. -/
structure Engine.ReadsLiterals (engine : Engine) : Prop where
  empty : ∃ p, engine.read "" = .ok p ∧
    ∀ text start i, i ≤ text.size → engine.matchAt p text start i = some ⟨⟨i, i⟩, []⟩
  plain : ∀ {c w t q}, isMeta c = false → Spells w t → engine.read (.ofList w) = .ok q →
    ∃ p, engine.read (.ofList (c :: w)) = .ok p ∧ engine.Prepends c q p
  escaped : ∀ {c w t q}, isMark c = true → Spells w t → engine.read (.ofList w) = .ok q →
    ∃ p, engine.read (.ofList ('\\' :: c :: w)) = .ok p ∧ engine.Prepends c q p
  grouped : ∀ {w t q}, t ≠ [] → Spells w t → engine.read (.ofList w) = .ok q →
    ∃ p, engine.read ("(" ++ .ofList w ++ ")") = .ok p ∧
      ∀ text start i, engine.matchAt p text start i = (engine.matchAt q text start i).map Match.inGroup

/-! ## Texts that stand somewhere -/

namespace Text

def StandsAt (t : String) (text : Array Char) (i : Nat) : Prop :=
  t.toList <+: text.toList.drop i

instance (t : String) (text : Array Char) (i : Nat) : Decidable (StandsAt t text i) :=
  inferInstanceAs (Decidable (t.toList <+: text.toList.drop i))

def spanAt (t : String) (i : Nat) : Span :=
  ⟨i, i + t.length⟩

variable {t u : String} {c : Char} {text : Array Char} {i : Nat}

theorem standsAt_cons (ht : t.toList = c :: u.toList) :
    StandsAt t text i ↔ text[i]? = some c ∧ StandsAt u text (i + 1) := by
  unfold StandsAt
  rw [ht]
  by_cases hi : i < text.size
  · have hdrop : text.toList.drop i = text[i] :: text.toList.drop (i + 1) :=
      List.drop_eq_getElem_cons (by simpa using hi)
    rw [hdrop, List.cons_prefix_cons, Array.getElem?_eq_getElem hi, Option.some.injEq, eq_comm]
  · have hdrop : text.toList.drop i = [] := List.drop_eq_nil_of_le (by simpa using Nat.not_lt.mp hi)
    rw [hdrop, Array.getElem?_eq_none (Nat.not_lt.mp hi)]
    simp

theorem spanAt_cons (ht : t.toList = c :: u.toList) : spanAt t i = ⟨i, (spanAt u (i + 1)).stop⟩ := by
  unfold spanAt
  rw [← String.length_toList, ht, List.length_cons, String.length_toList, Nat.add_assoc, Nat.add_comm 1]

end Text

structure Engine.LooksFor (engine : Engine) (p : Pattern) (t : String) (captured : Nat → List (Option Span)) : Prop where
  found : ∀ {text start i}, i ≤ text.size → Text.StandsAt t text i →
    engine.matchAt p text start i = some ⟨Text.spanAt t i, captured i⟩
  missed : ∀ {text start i}, ¬Text.StandsAt t text i → engine.matchAt p text start i = none

namespace Engine

variable {engine : Engine} {p q : Pattern} {t u : String} {c : Char}

theorem LooksFor.prepend (hq : engine.LooksFor q u fun _ => []) (hp : engine.Prepends c q p)
    (ht : t.toList = c :: u.toList) : engine.LooksFor p t fun _ => [] where
  found {text start i} _ hs := by
    obtain ⟨hc, hu⟩ := (Text.standsAt_cons ht).mp hs
    have hi : i < text.size := (Array.getElem?_eq_some_iff.mp hc).1
    rw [hp, if_pos hc, hq.found hi hu, Text.spanAt_cons ht]
    rfl
  missed {text start i} hs := by
    rw [hp]
    by_cases hc : text[i]? = some c
    · rw [if_pos hc, hq.missed fun hu => hs ((Text.standsAt_cons ht).mpr ⟨hc, hu⟩)]
      rfl
    · rw [if_neg hc]

namespace ReadsLiterals

theorem exists_looksFor (hm : engine.ReadsLiterals) {w cs : List Char} (hw : Spells w cs) :
    ∃ p, engine.read (.ofList w) = .ok p ∧ engine.LooksFor p (.ofList cs) fun _ => [] := by
  have hcons (c : Char) (t : List Char) : (String.ofList (c :: t)).toList = c :: (String.ofList t).toList := by
    rw [String.toList_ofList, String.toList_ofList]
  induction hw with
  | nil =>
    obtain ⟨p, hp, hempty⟩ := hm.empty
    exact ⟨p, hp, fun hi _ => hempty _ _ _ hi, fun hs => absurd List.nil_prefix hs⟩
  | @plain c w t hc hw ih =>
    obtain ⟨q, hq, hlooks⟩ := ih
    obtain ⟨p, hp, hprepends⟩ := hm.plain hc hw hq
    exact ⟨p, hp, hlooks.prepend hprepends (hcons c t)⟩
  | @escaped c w t hc hw ih =>
    obtain ⟨q, hq, hlooks⟩ := ih
    obtain ⟨p, hp, hprepends⟩ := hm.escaped hc hw hq
    exact ⟨p, hp, hlooks.prepend hprepends (hcons c t)⟩

theorem exists_looksFor_escape (hm : engine.ReadsLiterals) (t : String) :
    ∃ p, engine.read (escape t) = .ok p ∧ engine.LooksFor p t fun _ => [] := by
  have h := hm.exists_looksFor (Literal.spells_escape t)
  rwa [String.ofList_toList, String.ofList_toList] at h

theorem looksFor_bare (hm : engine.ReadsLiterals) (hp : engine.read (escape t) = .ok p) :
    engine.LooksFor p t fun _ => [] := by
  obtain ⟨p', hp', hlooks⟩ := hm.exists_looksFor_escape t
  rw [hp] at hp'
  cases hp'
  exact hlooks

theorem looksFor_grouped (hm : engine.ReadsLiterals) (ht : t ≠ "") (hp : engine.read ("(" ++ escape t ++ ")") = .ok p) :
    engine.LooksFor p t fun i => [some (Text.spanAt t i)] := by
  have hne : t.toList ≠ [] := mt String.toList_eq_nil_iff.mp ht
  obtain ⟨q, hq, hlooks⟩ := hm.exists_looksFor_escape t
  obtain ⟨p', hp', hgroup⟩ := hm.grouped hne (Literal.spells_escape t) (by rwa [String.ofList_toList])
  rw [String.ofList_toList, hp] at hp'
  cases hp'
  constructor
  · intro text start i hi hs
    rw [hgroup, hlooks.found hi hs]
    rfl
  · intro text start i hs
    rw [hgroup, hlooks.missed hs]
    rfl

end ReadsLiterals

end Engine

/-! ## References -/

namespace Literal

def referenceTo (k : Nat) : String :=
  String.ofList ['\\', Nat.digitChar k]

variable {k : Nat} {groups : List (Option String)} {g : String}

theorem reference?_digitChar (hk : 1 ≤ k) (hk' : k ≤ 9) : (Piece.pair (Nat.digitChar k)).reference? = some k := by
  have hall : ∀ k < 10, 1 ≤ k → (Piece.pair (Nat.digitChar k)).reference? = some k := by decide
  exact hall k (by omega) hk

theorem resolve_digitChar (hk : 1 ≤ k) (hk' : k ≤ 9) (hg : groups[k]? = some (some g)) :
    (Piece.pair (Nat.digitChar k)).resolve groups = (escape g).toList := by
  unfold Piece.resolve
  rw [reference?_digitChar hk hk']
  simp [hg]

theorem toList_referenceTo (k : Nat) : (referenceTo k).toList = ['\\', Nat.digitChar k] :=
  String.toList_ofList

theorem pieces_referenceTo (k : Nat) : pieces (referenceTo k).toList = [.pair (Nat.digitChar k)] := by
  rw [toList_referenceTo]
  rfl

theorem pieces_group (k : Nat) :
    pieces ("(" ++ referenceTo k ++ ")").toList = [.plain '(', .pair (Nat.digitChar k), .plain ')'] := by
  rw [String.toList_append, String.toList_append, toList_referenceTo]
  rfl

theorem resolveBackReferences_referenceTo (hk : 1 ≤ k) (hk' : k ≤ 9) (hg : groups[k]? = some (some g)) :
    resolveBackReferences (referenceTo k) groups = escape g := by
  rw [resolveBackReferences, pieces_referenceTo, List.flatMap_singleton, resolve_digitChar hk hk' hg, String.ofList_toList]

theorem resolveBackReferences_group (hk : 1 ≤ k) (hk' : k ≤ 9) (hg : groups[k]? = some (some g)) :
    resolveBackReferences ("(" ++ referenceTo k ++ ")") groups = "(" ++ escape g ++ ")" := by
  rw [resolveBackReferences, pieces_group, List.flatMap_cons, List.flatMap_cons, List.flatMap_singleton,
    resolve_digitChar hk hk' hg, ← String.toList_inj, String.toList_ofList, String.toList_append, String.toList_append]
  rfl

theorem pieces_cons_plain {c : Char} (hc : c ≠ '\\') (cs : List Char) : pieces (c :: cs) = .plain c :: pieces cs := by
  rw [pieces]
  · intro h _
    exact hc h
  · intro _ _ h _
    exact hc h

def escapedPiece (c : Char) : Piece :=
  if isSpecial c then .pair c else .plain c

theorem pieces_escape : ∀ t : List Char, pieces (t.flatMap escapeChar) = t.map escapedPiece
  | [] => rfl
  | c :: t => by
    rw [List.flatMap_cons, List.map_cons, ← pieces_escape t]
    unfold escapeChar escapedPiece
    by_cases hc : isSpecial c = true
    · rw [if_pos hc, if_pos hc]
      rfl
    · have hne : c ≠ '\\' := fun he => hc (he ▸ rfl)
      rw [if_neg hc, if_neg hc, List.singleton_append, pieces_cons_plain hne]

theorem reference?_escapedPiece (c : Char) : (escapedPiece c).reference? = none := by
  unfold escapedPiece
  by_cases hc : isSpecial c = true
  · rw [if_pos hc]
    exact reference?_of_isMark (isMark_of_isSpecial hc)
  · rw [if_neg hc]
    rfl

theorem reference?_of_mem_pieces {t : List Char} {p : Piece} (hp : p ∈ pieces (t.flatMap escapeChar)) :
    p.reference? = none := by
  rw [pieces_escape] at hp
  obtain ⟨c, _, rfl⟩ := List.mem_map.mp hp
  exact reference?_escapedPiece c

theorem hasBackReferences_escape (t : String) : hasBackReferences (escape t) = false := by
  unfold hasBackReferences
  rw [toList_escape, List.any_eq_false]
  intro p hp
  simp [reference?_of_mem_pieces hp]

end Literal

end Highlight
