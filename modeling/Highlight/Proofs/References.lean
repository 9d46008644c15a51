import Highlight.Proofs.CharRuns
import Highlight.Scope.Template
import Mathlib.Data.List.Forall2

/-!
# References in templates

What a reference looks like is said here without the reader. From left to right a template is cut into
references, wherever one starts, and characters that stand for themselves, so that there is one
cut, whatever the groups hold.
-/

namespace Highlight.Scope

inductive Reference where
  | digits (ds : List Char)
  | braces (inner : List Char)

namespace Reference

def inner : Reference → List Char
  | digits ds => ds
  | braces inner => inner

def text : Reference → List Char
  | digits ds => '$' :: ds
  | braces inner => '$' :: '\x7b' :: (inner ++ ['\x7d'])

end Reference

inductive Names : List Char → Nat → List Char → Prop
  | bare {number n} : ':' ∉ number → Text.Writes number n → Names number n []
  | modified {number modifier n} : ':' ∉ number → Text.Writes number n → Names (number ++ ':' :: modifier) n modifier

/-- A text that begins with a reference, and the rest of it. The reference has all digits that come next,
or all that comes up to the next closing brace, and it names a group. -/
inductive Starts : List Char → Reference → List Char → Prop
  | digits {ds rest n} : (∀ d ∈ ds, d.isDigit = true) → (∀ c, rest.head? = some c → c.isDigit = false) →
    Text.Writes ds n → Starts ('$' :: (ds ++ rest)) (.digits ds) rest
  | braces {inner rest n modifier} : '\x7d' ∉ inner → Names inner n modifier →
    Starts ('$' :: '\x7b' :: (inner ++ '\x7d' :: rest)) (.braces inner) rest

inductive Part where
  | literal (c : Char)
  | reference (r : Reference)

def Part.text : Part → List Char
  | literal c => [c]
  | reference r => r.text

/-- Each part is a reference if one starts there, and else a character. -/
inductive IsCut : List Char → List Part → Prop
  | nil : IsCut [] []
  | literal {c cs ps} : (∀ r rest, ¬Starts (c :: cs) r rest) → IsCut cs ps → IsCut (c :: cs) (.literal c :: ps)
  | reference {cs r rest ps} : Starts cs r rest → IsCut rest ps → IsCut cs (.reference r :: ps)

inductive Cased : List Char → String → String → Prop
  | lower {t} : Cased "/downcase".toList t (Unicode.toLower t)
  | upper {t} : Cased "/upcase".toList t (Unicode.toUpper t)
  | kept {modifier t} : modifier ≠ "/downcase".toList → modifier ≠ "/upcase".toList → Cased modifier t t

inductive Fills (groups : List (Option String)) (n : Nat) (modifier : List Char) : List Char → Prop
  | group {t u} : groups[n]? = some (some t) → Cased modifier t u → Fills groups n modifier u.toList
  | absent : (∀ t, groups[n]? ≠ some (some t)) → Fills groups n modifier []

inductive Part.Yields (groups : List (Option String)) : Part → List Char → Prop
  | literal {c} : Yields groups (.literal c) [c]
  | reference {r n modifier text} : Names r.inner n modifier → Fills groups n modifier text →
    Yields groups (.reference r) text

variable {c : Char} {cs before rest inner modifier : List Char} {n : Nat} {p : Piece} {r r' : Reference}

/-! ## Reading references -/

theorem cutAt_eq_some_iff : cutAt c cs = some (before, rest) ↔ c ∉ before ∧ cs = before ++ c :: rest := by
  unfold cutAt
  constructor
  · intro h
    split at h
    · cases h
    · rename_i d tail hdrop
      cases h
      have hhead := List.head?_dropWhile_not (· ≠ c) cs
      rw [hdrop] at hhead
      have hd : d = c := by simpa using hhead
      refine ⟨fun hc => ?_, ?_⟩
      · simpa using List.mem_takeWhile_imp hc
      · rw [← hd, ← hdrop, hd, List.takeWhile_append_dropWhile]
  · rintro ⟨hbefore, rfl⟩
    have hrun : ∀ d ∈ before, decide (d ≠ c) = true := by
      intro d hd
      rw [decide_eq_true_iff]
      rintro rfl
      exact hbefore hd
    have hrest : ∀ d, (c :: rest).head? = some d → decide (d ≠ c) = false := by
      rintro d ⟨rfl⟩
      simp
    rw [Text.dropWhile_run hrun hrest, Text.takeWhile_run hrun hrest]

theorem cutAt_eq_none_iff : cutAt c cs = none ↔ c ∉ cs := by
  constructor
  · intro h hc
    obtain ⟨before, rest, rfl, hbefore⟩ := List.eq_append_cons_of_mem hc
    rw [cutAt_eq_some_iff.mpr ⟨hbefore, rfl⟩] at h
    cases h
  · intro hc
    cases h : cutAt c cs with
    | none => rfl
    | some parts =>
      obtain ⟨before, rest⟩ := parts
      obtain ⟨_, rfl⟩ := cutAt_eq_some_iff.mp h
      simp at hc

theorem names_iff : Names inner n modifier ↔
    Text.number? ((cutAt ':' inner).getD (inner, [])).1 = some n ∧ ((cutAt ':' inner).getD (inner, [])).2 = modifier := by
  constructor
  · intro h
    cases h with
    | bare hcolon hn =>
      rw [cutAt_eq_none_iff.mpr hcolon]
      exact ⟨Text.number?_eq_some_iff.mpr hn, rfl⟩
    | modified hcolon hn =>
      rw [cutAt_eq_some_iff.mpr ⟨hcolon, rfl⟩]
      exact ⟨Text.number?_eq_some_iff.mpr hn, rfl⟩
  · rintro ⟨hn, hmodifier⟩
    cases h : cutAt ':' inner with
    | none =>
      rw [h] at hn hmodifier
      cases hmodifier
      exact .bare (cutAt_eq_none_iff.mp h) (Text.number?_eq_some_iff.mp hn)
    | some parts =>
      obtain ⟨number, modifier⟩ := parts
      rw [h] at hn hmodifier
      cases hmodifier
      obtain ⟨hcolon, rfl⟩ := cutAt_eq_some_iff.mp h
      exact .modified hcolon (Text.number?_eq_some_iff.mp hn)

theorem not_names_nil : ¬Names [] n modifier := by
  rw [names_iff]
  rintro ⟨hn, _⟩
  exact Text.not_writes_nil (Text.number?_eq_some_iff.mp hn)

theorem reference?_eq_some_iff : reference? inner = some p ↔
    ∃ n modifier, Names inner n modifier ∧ p = .reference n (.ofModifier modifier) := by
  unfold reference?
  simp only [Option.map_eq_some_iff, names_iff]
  constructor
  · rintro ⟨n, hn, rfl⟩
    exact ⟨n, _, ⟨hn, rfl⟩, rfl⟩
  · rintro ⟨n, _, ⟨hn, rfl⟩, rfl⟩
    exact ⟨n, hn, rfl⟩

theorem reference?_of_names (h : Names inner n modifier) :
    reference? inner = some (.reference n (.ofModifier modifier)) :=
  reference?_eq_some_iff.mpr ⟨n, modifier, h, rfl⟩

theorem reference?_eq_none_iff : reference? inner = none ↔ ∀ n modifier, ¬Names inner n modifier := by
  constructor
  · intro h n modifier hnames
    rw [reference?_of_names hnames] at h
    cases h
  · intro h
    cases hp : reference? inner with
    | none => rfl
    | some p =>
      obtain ⟨n, modifier, hnames, _⟩ := reference?_eq_some_iff.mp hp
      exact absurd hnames (h n modifier)

theorem readReference_eq_some_iff : readReference cs = some (p, rest) ↔
    ∃ inner, referenceText cs = some (inner, rest) ∧ reference? inner = some p := by
  unfold readReference
  cases referenceText cs with
  | none => simp
  | some parts =>
    obtain ⟨inner, rest'⟩ := parts
    cases hp : reference? inner with
    | none => simp +contextual [hp]
    | some q => simp +contextual [hp, and_comm]

theorem not_colon_mem (hdigits : ∀ d ∈ inner, d.isDigit = true) : ':' ∉ inner := by
  intro h
  exact absurd (hdigits _ h) (by decide)

theorem writes_of_names (hdigits : ∀ d ∈ inner, d.isDigit = true) (h : Names inner n modifier) :
    Text.Writes inner n := by
  cases h with
  | bare _ hn => exact hn
  | modified _ _ => exact absurd (by simp) (not_colon_mem hdigits)

/-! ## Where references start -/

theorem referenceText_digits (h : cs.head? ≠ some '\x7b') :
    referenceText cs = some (cs.takeWhile Char.isDigit, cs.dropWhile Char.isDigit) := by
  unfold referenceText
  split
  · exact absurd rfl h
  · rfl

theorem head?_ne_of_writes (hds : ∀ d ∈ cs, d.isDigit = true) (hn : Text.Writes cs n) :
    (cs ++ rest).head? ≠ some '\x7b' := by
  cases cs with
  | nil => exact absurd hn Text.not_writes_nil
  | cons d ds =>
    rintro ⟨rfl⟩
    exact absurd (hds _ (List.mem_cons_self ..)) (by decide)

namespace Starts

theorem referenceText_eq (h : Starts cs r rest) : ∃ tail, cs = '$' :: tail ∧
    referenceText tail = some (r.inner, rest) ∧ (tail.head? = some '\x7b' ↔ r = .braces r.inner) := by
  cases h with
  | @digits ds rest n hds hrest hn =>
    have hhead : (ds ++ rest).head? ≠ some '\x7b' := head?_ne_of_writes hds hn
    refine ⟨ds ++ rest, rfl, ?_, iff_of_false hhead (by simp)⟩
    rw [referenceText_digits hhead, Text.takeWhile_run hds hrest, Text.dropWhile_run hds hrest]
    rfl
  | @braces inner rest n modifier hclose _ =>
    exact ⟨'\x7b' :: (inner ++ '\x7d' :: rest), rfl, cutAt_eq_some_iff.mpr ⟨hclose, rfl⟩, iff_of_true rfl rfl⟩

theorem names (h : Starts cs r rest) : ∃ n modifier, Names r.inner n modifier := by
  cases h with
  | @digits ds rest n hds _ hn =>
    exact ⟨n, [], .bare (not_colon_mem hds) hn⟩
  | @braces inner rest n modifier _ hnames => exact ⟨n, modifier, hnames⟩

theorem unique {rest' : List Char} (h : Starts cs r rest) (h' : Starts cs r' rest') : r = r' ∧ rest = rest' := by
  obtain ⟨tail, rfl, htext, hbraces⟩ := h.referenceText_eq
  obtain ⟨_, ⟨rfl⟩, htext', hbraces'⟩ := h'.referenceText_eq
  rw [htext, Option.some.injEq, Prod.mk.injEq] at htext'
  obtain ⟨hinner, hrest⟩ := htext'
  refine ⟨?_, hrest⟩
  by_cases hhead : tail.head? = some '\x7b'
  · rw [hbraces.mp hhead, hbraces'.mp hhead, hinner]
  · cases r with
    | braces inner => exact absurd (hbraces.mpr rfl) hhead
    | digits ds =>
      cases r' with
      | braces inner => exact absurd (hbraces'.mpr rfl) hhead
      | digits ds' => exact congrArg Reference.digits hinner

theorem text (h : Starts cs r rest) : cs = r.text ++ rest := by
  cases h with
  | digits _ _ _ => rfl
  | braces _ _ => simp [Reference.text]

end Starts

theorem exists_starts (htext : referenceText cs = some (inner, rest)) (hnames : Names inner n modifier) :
    ∃ r, Starts ('$' :: cs) r rest ∧ r.inner = inner := by
  by_cases hhead : cs.head? = some '\x7b'
  · obtain ⟨tail, rfl⟩ := List.head?_eq_some_iff.mp hhead
    obtain ⟨hclose, rfl⟩ := cutAt_eq_some_iff.mp (show cutAt '\x7d' tail = some (inner, rest) from htext)
    exact ⟨.braces inner, .braces hclose hnames, rfl⟩
  · rw [referenceText_digits hhead] at htext
    cases htext
    have hdigits : ∀ d ∈ cs.takeWhile Char.isDigit, d.isDigit = true := fun d hd => List.mem_takeWhile_imp hd
    have hrest : ∀ c, (cs.dropWhile Char.isDigit).head? = some c → c.isDigit = false := by
      intro c hc
      have := List.head?_dropWhile_not Char.isDigit cs
      rw [hc] at this
      exact this
    refine ⟨.digits (cs.takeWhile Char.isDigit), ?_, rfl⟩
    have := Starts.digits hdigits hrest (writes_of_names hdigits hnames)
    rwa [List.takeWhile_append_dropWhile] at this

theorem readReference_of_starts (h : Starts ('$' :: cs) r rest) (hnames : Names r.inner n modifier) :
    readReference cs = some (.reference n (.ofModifier modifier), rest) := by
  obtain ⟨_, ⟨rfl⟩, htext, _⟩ := h.referenceText_eq
  exact readReference_eq_some_iff.mpr ⟨r.inner, htext, reference?_of_names hnames⟩

theorem not_starts_of_none (h : readReference cs = none) : ¬Starts ('$' :: cs) r rest := by
  intro hstarts
  obtain ⟨n, modifier, hnames⟩ := hstarts.names
  rw [readReference_of_starts hstarts hnames] at h
  cases h

theorem exists_starts_of_some (h : readReference cs = some (p, rest)) :
    ∃ r n modifier, Starts ('$' :: cs) r rest ∧ Names r.inner n modifier ∧ p = .reference n (.ofModifier modifier) := by
  obtain ⟨inner, htext, hp⟩ := readReference_eq_some_iff.mp h
  obtain ⟨n, modifier, hnames, rfl⟩ := reference?_eq_some_iff.mp hp
  obtain ⟨r, hstarts, rfl⟩ := exists_starts htext hnames
  exact ⟨r, n, modifier, hstarts, hnames, rfl⟩

/-! ## Texts in the places of references -/

theorem cased_iff {t u : String} : Cased modifier t u ↔ u = (Casing.ofModifier modifier).apply t := by
  unfold Casing.ofModifier
  constructor
  · intro h
    cases h with
    | lower => rfl
    | upper => rfl
    | kept hlower hupper => rw [if_neg hlower, if_neg hupper, Casing.apply]
  · rintro rfl
    by_cases hlower : modifier = "/downcase".toList
    · rw [if_pos hlower, hlower]
      exact .lower
    · by_cases hupper : modifier = "/upcase".toList
      · rw [if_neg hlower, if_pos hupper, hupper]
        exact .upper
      · rw [if_neg hlower, if_neg hupper]
        exact .kept hlower hupper

theorem Casing.apply_empty (casing : Casing) : casing.apply "" = "" := by
  cases casing with
  | kept => rfl
  | lower => rfl
  | upper => rfl

variable {groups : List (Option String)} {filled : List Char}

theorem fill_of_absent (h : ∀ t, groups[n]? ≠ some (some t)) (casing : Casing) :
    (Piece.reference n casing).fill groups = [] := by
  have hjoin : groups[n]?.join = none := by
    rw [Option.eq_none_iff_forall_ne_some]
    intro t ht
    exact h t (Option.join_eq_some_iff.mp ht)
  rw [Piece.fill, hjoin, Option.getD_none, Casing.apply_empty]
  rfl

theorem fill_of_group {t : String} (h : groups[n]? = some (some t)) (casing : Casing) :
    (Piece.reference n casing).fill groups = (casing.apply t).toList := by
  rw [Piece.fill, h]
  rfl

theorem fills_iff : Fills groups n modifier filled ↔
    filled = (Piece.reference n (.ofModifier modifier)).fill groups := by
  constructor
  · intro h
    cases h with
    | group ht hcased => rw [fill_of_group ht, cased_iff.mp hcased]
    | absent ht => rw [fill_of_absent ht]
  · rintro rfl
    by_cases ht : ∃ t, groups[n]? = some (some t)
    · obtain ⟨t, ht⟩ := ht
      rw [fill_of_group ht]
      exact .group ht (cased_iff.mpr rfl)
    · rw [not_exists] at ht
      rw [fill_of_absent ht]
      exact .absent ht

/-! ## Cuts -/

theorem pieces_cons (hc : c ≠ '$') (cs : List Char) : pieces (c :: cs) = .literal c :: pieces cs := by
  rw [pieces]
  exact hc

theorem pieces_reference (h : readReference cs = some (p, rest)) : pieces ('$' :: cs) = p :: pieces rest := by
  rw [pieces]
  split
  · rename_i hread
    rw [h] at hread
    cases hread
    rfl
  · rename_i hread
    rw [h] at hread
    cases hread

theorem pieces_dollar (h : readReference cs = none) : pieces ('$' :: cs) = .literal '$' :: pieces cs := by
  rw [pieces]
  split
  · rename_i hread
    rw [h] at hread
    cases hread
  · rfl

theorem pieces_append (h : '$' ∉ before) (cs : List Char) :
    pieces (before ++ cs) = before.map .literal ++ pieces cs := by
  induction before with
  | nil => rfl
  | cons c before ih =>
    rw [List.mem_cons, not_or] at h
    rw [List.cons_append, pieces_cons (Ne.symm h.1), ih h.2, List.map_cons, List.cons_append]

theorem Starts.head?_eq (h : Starts cs r rest) : cs.head? = some '$' := by
  obtain ⟨tail, rfl, _⟩ := h.referenceText_eq
  rfl

/-- The pieces that are read are a cut, and what is put in for them is what the cut yields. -/
theorem exists_cut (cs : List Char) : ∃ ps, IsCut cs ps ∧
    ∀ groups, List.Forall₂ (Part.Yields groups) ps ((pieces cs).map (Piece.fill groups)) := by
  fun_induction pieces cs with
  | case1 => exact ⟨[], .nil, fun _ => .nil⟩
  | case2 cs p rest h ih =>
    obtain ⟨ps, hcut, hyields⟩ := ih
    obtain ⟨r, n, modifier, hstarts, hnames, rfl⟩ := exists_starts_of_some h
    exact ⟨.reference r :: ps, .reference hstarts hcut,
      fun groups => .cons (.reference hnames (fills_iff.mpr rfl)) (hyields groups)⟩
  | case3 cs h ih =>
    obtain ⟨ps, hcut, hyields⟩ := ih
    exact ⟨.literal '$' :: ps, .literal (fun _ _ => not_starts_of_none h) hcut,
      fun groups => .cons .literal (hyields groups)⟩
  | case4 c cs hc ih =>
    obtain ⟨ps, hcut, hyields⟩ := ih
    refine ⟨.literal c :: ps, .literal (fun r rest hstarts => ?_) hcut, fun groups => .cons .literal (hyields groups)⟩
    exact hc (Option.some.inj hstarts.head?_eq)

theorem IsCut.unique {ps qs : List Part} (h : IsCut cs ps) (h' : IsCut cs qs) : ps = qs := by
  -- whether a reference starts settles which part comes next, and where the cut goes on
  induction h generalizing qs with
  | nil =>
    generalize hcs : ([] : List Char) = cs at h'
    cases h' with
    | nil => rfl
    | literal _ _ => cases hcs
    | reference hstarts _ =>
      rw [← hcs] at hstarts
      cases hstarts.head?_eq
  | @literal c cs ps hnone _ ih =>
    generalize hcs : c :: cs = ds at h'
    cases h' with
    | nil => cases hcs
    | literal _ hcut =>
      cases hcs
      rw [ih hcut]
    | reference hstarts _ =>
      rw [← hcs] at hstarts
      exact absurd hstarts (hnone _ _)
  | @reference cs r rest ps hstarts _ ih =>
    cases h' with
    | nil => cases hstarts.head?_eq
    | literal hnone _ => exact absurd hstarts (hnone _ _)
    | reference hstarts' hcut =>
      obtain ⟨rfl, rfl⟩ := hstarts.unique hstarts'
      rw [ih hcut]

theorem IsCut.text {ps : List Part} (h : IsCut cs ps) : ps.flatMap Part.text = cs := by
  induction h with
  | nil => rfl
  | literal _ _ ih => rw [List.flatMap_cons, ih, Part.text, List.singleton_append]
  | reference hstarts _ ih => rw [List.flatMap_cons, ih, Part.text, ← hstarts.text]

end Highlight.Scope
