import Highlight.Proofs.Literals
import Mathlib.Data.List.Forall2

/-!
# Texts in the places of references

A pattern is cut in one way only into characters, pairs of a backslash and a character, and maybe a
backslash at its end. The text of a group comes in the place of a pair, and escaped it is cut into
whole characters and pairs itself: whatever is in it, the rest of the pattern is cut as before, and
no reference is left.
-/

namespace Highlight.Literal

/-! ## Cuts -/

structure IsCut (cs : List Char) (ps : List Piece) : Prop where
  text : ps.flatMap Piece.text = cs
  plain : ∀ c, .plain c ∈ ps → c ≠ '\\'
  lone : ps.Pairwise fun p _ => p ≠ .lone

namespace IsCut

variable {cs ds : List Char} {p : Piece} {ps qs : List Piece}

theorem nil : IsCut [] [] :=
  ⟨rfl, fun _ h => (List.not_mem_nil h).elim, .nil⟩

theorem cons (h : IsCut cs ps) (hplain : ∀ c, p = .plain c → c ≠ '\\') (hlone : p ≠ .lone) :
    IsCut (p.text ++ cs) (p :: ps) where
  text := by rw [List.flatMap_cons, h.text]
  plain c hc := by
    rcases List.mem_cons.mp hc with hp | hc
    · exact hplain c hp.symm
    · exact h.plain c hc
  lone := .cons (fun _ _ => hlone) h.lone

theorem of_cons (h : IsCut cs (p :: ps)) : ∃ ds, cs = p.text ++ ds ∧ IsCut ds ps :=
  ⟨ps.flatMap Piece.text, by rw [← h.text, List.flatMap_cons], rfl, fun c hc => h.plain c (List.mem_cons_of_mem p hc),
    (List.pairwise_cons.mp h.lone).2⟩

end IsCut

theorem isCut_pieces (cs : List Char) : IsCut cs (pieces cs) := by
  fun_induction pieces cs with
  | case1 => exact .nil
  | case2 => exact ⟨rfl, by simp, List.pairwise_singleton _ _⟩
  | case3 c cs ih => exact ih.cons (p := .pair c) (by simp) (by simp)
  | case4 c cs hend hpair ih =>
    refine ih.cons (p := .plain c) ?_ (by simp)
    rintro _ ⟨rfl⟩ rfl
    cases cs with
    | nil => exact hend rfl rfl
    | cons d cs => exact hpair d cs rfl rfl

theorem IsCut.eq_pieces : ∀ {ps : List Piece} {cs : List Char}, IsCut cs ps → ps = pieces cs
  | [], _, h => by rw [← h.text]; rfl
  | p :: ps, _, h => by
    obtain ⟨ds, rfl, hds⟩ := h.of_cons
    have ih := hds.eq_pieces
    cases p with
    | plain c =>
      rw [Piece.text, List.singleton_append, pieces_cons_plain (h.plain c (List.mem_cons_self ..)), ← ih]
    | pair c =>
      show _ = Piece.pair c :: pieces ds
      rw [← ih]
    | lone =>
      cases ps with
      | nil =>
        rw [← hds.text]
        rfl
      | cons q qs => exact absurd rfl ((List.pairwise_cons.mp h.lone).1 q (List.mem_cons_self ..))

theorem isCut_iff {cs : List Char} {ps : List Piece} : IsCut cs ps ↔ ps = pieces cs := by
  constructor
  · exact IsCut.eq_pieces
  · rintro rfl
    exact isCut_pieces cs

/-! ## References -/

namespace Piece

def RefersTo (p : Piece) (k : Nat) : Prop :=
  1 ≤ k ∧ k ≤ 9 ∧ p = .pair (Nat.digitChar k)

/-- What comes in the place of a piece: for a reference the escaped text of its group, nothing if
the group did not take part, and else the piece as it is. -/
inductive Yields (groups : List (Option String)) : Piece → List Char → Prop
  | kept {p} (h : ∀ k, ¬p.RefersTo k) : Yields groups p p.text
  | group {p k t} (h : p.RefersTo k) (ht : groups[k]? = some (some t)) : Yields groups p (escape t).toList
  | absent {p k} (h : p.RefersTo k) (ht : ∀ t, groups[k]? ≠ some (some t)) : Yields groups p []

variable {p : Piece} {k : Nat}

theorem eq_digitChar {c : Char} (h1 : '1' ≤ c) (h9 : c ≤ '9') : c = Nat.digitChar (c.toNat - '0'.toNat) := by
  have hlow : 49 ≤ c.toNat := h1
  have hhigh : c.toNat ≤ 57 := h9
  have hall : ∀ n < 58, 49 ≤ n → Char.ofNat n = Nat.digitChar (n - '0'.toNat) := by decide
  rw [← hall c.toNat (by omega) hlow, Char.ofNat_toNat]

theorem reference?_eq_some_iff : p.reference? = some k ↔ p.RefersTo k := by
  constructor
  · intro h
    cases p with
    | plain c => cases h
    | lone => cases h
    | pair c =>
      rw [reference?] at h
      split at h
      · rename_i hc
        have hlow : 49 ≤ c.toNat := hc.1
        have hhigh : c.toNat ≤ 57 := hc.2
        have hzero : '0'.toNat = 48 := rfl
        cases h
        exact ⟨by omega, by omega, congrArg pair (eq_digitChar hc.1 hc.2)⟩
      · cases h
  · rintro ⟨h1, h9, rfl⟩
    exact reference?_digitChar h1 h9

theorem reference?_eq_none_iff : p.reference? = none ↔ ∀ k, ¬p.RefersTo k := by
  simp only [Option.eq_none_iff_forall_ne_some, ne_eq, reference?_eq_some_iff]

theorem yields_resolve (groups : List (Option String)) (p : Piece) : p.Yields groups (p.resolve groups) := by
  unfold resolve
  cases hk : p.reference? with
  | none => exact .kept (reference?_eq_none_iff.mp hk)
  | some k =>
    have href := reference?_eq_some_iff.mp hk
    match hg : groups[k]? with
    | some (some t) =>
      simp only [hg]
      exact .group href hg
    | some none =>
      simp only [hg]
      exact .absent href (by simp [hg])
    | none =>
      simp only [hg]
      exact .absent href (by simp [hg])

end Piece

theorem hasBackReferences_iff {source : String} :
    hasBackReferences source = true ↔ ∃ p ∈ pieces source.toList, ∃ k, p.RefersTo k := by
  unfold hasBackReferences
  simp only [List.any_eq_true, Option.isSome_iff_exists, Piece.reference?_eq_some_iff]

theorem hasBackReferences_eq_false_iff {source : String} :
    hasBackReferences source = false ↔ ∀ p ∈ pieces source.toList, p.reference? = none := by
  unfold hasBackReferences
  simp

theorem resolveBackReferences_of_none {source : String} (h : hasBackReferences source = false)
    (groups : List (Option String)) : resolveBackReferences source groups = source := by
  have hkept : (pieces source.toList).flatMap (Piece.resolve groups) = (pieces source.toList).flatMap Piece.text := by
    apply List.flatMap_congr
    intro p hp
    unfold Piece.resolve
    rw [hasBackReferences_eq_false_iff.mp h p hp]
  unfold resolveBackReferences
  rw [hkept, (isCut_pieces source.toList).text, String.ofList_toList]

/-! ## What is cut after texts have been put in -/

theorem isCut_of_piece {cs : List Char} {ps : List Piece} {p : Piece} (h : IsCut cs ps) (hp : p ∈ ps) :
    IsCut p.text [p] := by
  refine ⟨List.flatMap_singleton .., ?_, List.pairwise_singleton _ _⟩
  intro c hc
  rw [List.mem_singleton] at hc
  exact h.plain c (hc ▸ hp)

theorem ne_lone_of_mem_pieces {t : List Char} {p : Piece} (hp : p ∈ pieces (t.flatMap escapeChar)) : p ≠ .lone := by
  rw [pieces_escape] at hp
  obtain ⟨c, _, rfl⟩ := List.mem_map.mp hp
  unfold escapedPiece
  split
  · simp
  · simp

section

variable {cs : List Char} {p q : Piece} (groups : List (Option String))

def putIn (p : Piece) : List Piece :=
  pieces (p.resolve groups)

theorem putIn_cases (hp : p ∈ pieces cs) :
    p.reference? = none ∧ putIn groups p = [p] ∨ ∃ t : List Char, putIn groups p = pieces (t.flatMap escapeChar) := by
  unfold putIn
  have hyields := p.yields_resolve groups
  generalize p.resolve groups = ds at hyields
  cases hyields with
  | kept h => exact .inl ⟨Piece.reference?_eq_none_iff.mpr h, (isCut_of_piece (isCut_pieces cs) hp).eq_pieces.symm⟩
  | group h ht =>
    rename_i k t
    exact .inr ⟨t.toList, by rw [toList_escape]⟩
  | absent h ht => exact .inr ⟨[], rfl⟩

theorem reference?_of_mem_putIn (hp : p ∈ pieces cs) (hq : q ∈ putIn groups p) : q.reference? = none := by
  rcases putIn_cases groups hp with ⟨href, h⟩ | ⟨t, h⟩
  · rw [h, List.mem_singleton] at hq
    rw [hq]
    exact href
  · rw [h] at hq
    exact reference?_of_mem_pieces hq

theorem ne_lone_of_mem_putIn (hp : p ∈ pieces cs) (hlone : p ≠ .lone) (hq : q ∈ putIn groups p) : q ≠ .lone := by
  rcases putIn_cases groups hp with ⟨_, h⟩ | ⟨t, h⟩
  · rw [h, List.mem_singleton] at hq
    rw [hq]
    exact hlone
  · rw [h] at hq
    exact ne_lone_of_mem_pieces hq

/-- What is put in does not move the cuts of what follows it. -/
theorem pieces_resolved (cs : List Char) :
    pieces ((pieces cs).flatMap (Piece.resolve groups)) = (pieces cs).flatMap (putIn groups) := by
  refine (IsCut.eq_pieces ⟨?_, ?_, ?_⟩).symm
  · rw [List.flatMap_assoc]
    apply List.flatMap_congr
    intro p _
    exact (isCut_pieces (p.resolve groups)).text
  · intro c hc
    obtain ⟨p, _, hc⟩ := List.mem_flatMap.mp hc
    exact (isCut_pieces (p.resolve groups)).plain c hc
  · rw [List.pairwise_flatMap]
    constructor
    · intro p _
      exact (isCut_pieces (p.resolve groups)).lone
    · apply (isCut_pieces cs).lone.imp_of_mem
      intro p _ hp _ hlone q hq _ _
      exact ne_lone_of_mem_putIn groups hp hlone hq

end

theorem hasBackReferences_resolved (source : String) (groups : List (Option String)) :
    hasBackReferences (resolveBackReferences source groups) = false := by
  rw [hasBackReferences_eq_false_iff]
  unfold resolveBackReferences
  rw [String.toList_ofList, pieces_resolved]
  intro q hq
  obtain ⟨p, hp, hq⟩ := List.mem_flatMap.mp hq
  exact reference?_of_mem_putIn groups hp hq

/-- A pattern has one cut, and it has references where the cut has. The texts of groups come in
their places and all else stays, so no reference is left and nothing is put in a second time. -/
theorem resolveBackReferences_cut (source : String) :
    ∃ ps, (∀ qs, IsCut source.toList qs ↔ qs = ps) ∧
      (hasBackReferences source = true ↔ ∃ p ∈ ps, ∃ k, p.RefersTo k) ∧
      ∀ groups : List (Option String),
        (∃ texts, List.Forall₂ (Piece.Yields groups) ps texts ∧
          (resolveBackReferences source groups).toList = texts.flatten) ∧
        (hasBackReferences source = false → resolveBackReferences source groups = source) ∧
        hasBackReferences (resolveBackReferences source groups) = false ∧
        ∀ groups', resolveBackReferences (resolveBackReferences source groups) groups' =
          resolveBackReferences source groups := by
  refine ⟨pieces source.toList, fun _ => isCut_iff, hasBackReferences_iff, ?_⟩
  intro groups
  refine ⟨⟨(pieces source.toList).map (Piece.resolve groups), ?_, ?_⟩, ?_, ?_, ?_⟩
  · rw [List.forall₂_map_right_iff, List.forall₂_same]
    intro p _
    exact p.yields_resolve groups
  · unfold resolveBackReferences
    rw [String.toList_ofList, List.flatMap_def]
  · intro h
    exact resolveBackReferences_of_none h groups
  · exact hasBackReferences_resolved source groups
  · exact resolveBackReferences_of_none (hasBackReferences_resolved source groups)

-- the first two backslashes are a pair, and those of the group do not make one with what follows
example : resolveBackReferences "\\\\1\\1\\2\\" [none, some "\\1\\"] = "\\\\1\\\\1\\\\\\" := by
  decide +kernel

end Highlight.Literal
