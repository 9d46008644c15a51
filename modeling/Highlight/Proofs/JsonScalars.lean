import Highlight.Json.Reader
import Highlight.Proofs.CharRuns
import Mathlib.Tactic.Set
import Mathlib.Tactic.Tauto

/-!
# The texts of JSON strings and numbers

What a string or a number may look like is said here without the reader. The reader takes up
such a text as a whole: a string up to its closing quote, whatever comes after, and a number
up to something that ends a value.
-/

namespace Highlight.Json

open Text (hexValue? numberOf maxNumber numberOf_digit takeWhile_run dropWhile_run)

/-! ## Blanks and ends -/

def Blank (a : List Char) : Prop :=
  ∀ c ∈ a, c ∈ [' ', '\n', '\t', '\r']

instance (a : List Char) : Decidable (Blank a) :=
  List.decidableBAll (fun c => c ∈ [' ', '\n', '\t', '\r']) a

/-- What may come after a value: nothing, a blank or the end of an item. -/
def Delimited (rest : List Char) : Prop :=
  ∀ c ∈ rest.head?, c ∈ [' ', '\n', '\t', '\r', ',', ']', '}']

theorem isSpace_eq_true {c : Char} : isSpace c = true ↔ c ∈ [' ', '\n', '\t', '\r'] := by
  simp [isSpace, or_assoc]

theorem skipSpace_append {a : List Char} (h : Blank a) (cs : List Char) : skipSpace (a ++ cs) = skipSpace cs :=
  List.dropWhile_append_of_pos fun c hc => isSpace_eq_true.mpr (h c hc)

theorem skipSpace_cons {c : Char} (h : isSpace c = false) (cs : List Char) : skipSpace (c :: cs) = c :: cs :=
  List.dropWhile_cons_of_neg (by simp [h])

theorem skipSpace_blank {a : List Char} (h : Blank a) : skipSpace a = [] := by
  have := skipSpace_append h []
  rwa [List.append_nil] at this

theorem Delimited.cons {c : Char} (h : c ∈ [',', ']', '}']) (cs : List Char) : Delimited (c :: cs) := by
  intro d hd
  cases hd
  simp only [List.mem_cons, List.not_mem_nil, or_false] at h ⊢
  tauto

theorem Delimited.blank {a : List Char} (h : Blank a) {rest : List Char} (hrest : Delimited rest) :
    Delimited (a ++ rest) := by
  cases a with
  | nil => exact hrest
  | cons c a =>
    intro d hd
    cases hd
    have := h c (List.mem_cons_self ..)
    simp only [List.mem_cons, List.not_mem_nil, or_false] at this ⊢
    tauto

theorem Delimited.nil : Delimited [] :=
  nofun

/-! ## Escapes -/

inductive HexDigit : Nat → Char → Prop
  | lower {n : Nat} : n < 16 → HexDigit n n.digitChar
  | upper {n : Nat} : n < 16 → HexDigit n n.digitChar.toUpper

inductive HexText : List Char → Nat → Prop
  | mk {a b c d : Char} {i j k l : Nat} : HexDigit i a → HexDigit j b → HexDigit k c → HexDigit l d →
    HexText [a, b, c, d] (((i * 16 + j) * 16 + k) * 16 + l)

def shortEscapes : List (Char × Char) :=
  [('"', '"'), ('\\', '\\'), ('/', '/'), ('b', '\x08'), ('f', '\x0c'), ('n', '\n'), ('r', '\r'), ('t', '\t')]

theorem hexValue?_of_hexDigit {n : Nat} {c : Char} (h : HexDigit n c) : hexValue? c = some n := by
  have hall : ∀ i : Fin 16, hexValue? (Nat.digitChar i) = some i.val ∧ hexValue? (Nat.digitChar i).toUpper = some i.val := by
    decide
  cases h with
  | lower hn => exact (hall ⟨n, hn⟩).1
  | upper hn => exact (hall ⟨n, hn⟩).2

theorem hex4_append {u : List Char} {n : Nat} (h : HexText u n) (rest : List Char) :
    hex4 (u ++ rest) = .ok (n, rest) := by
  obtain ⟨ha, hb, hc, hd⟩ := h
  simp only [List.cons_append, List.nil_append, hex4, hexValue?_of_hexDigit ha, hexValue?_of_hexDigit hb,
    hexValue?_of_hexDigit hc, hexValue?_of_hexDigit hd]

theorem escaped?_of_mem {e c : Char} (h : (e, c) ∈ shortEscapes) : escaped? e = some c ∧ e ≠ 'u' := by
  have hall : ∀ p ∈ shortEscapes, escaped? p.1 = some p.2 ∧ p.1 ≠ 'u' := by decide
  exact hall _ h

theorem between_eq_true {a b n : Nat} (h : a ≤ n ∧ n ≤ b) : (decide (a ≤ n) && decide (n ≤ b)) = true := by
  rw [Bool.and_eq_true, decide_eq_true_iff, decide_eq_true_iff]
  exact h

theorem between_eq_false {a b n : Nat} (h : n < a ∨ b < n) : (decide (a ≤ n) && decide (n ≤ b)) = false := by
  rw [Bool.and_eq_false_iff, decide_eq_false_iff_not, decide_eq_false_iff_not]
  omega

/-- No character has a number between those of the surrogates. -/
theorem unicodeEscape_toNat {c : Char} {u : List Char} (h : HexText u c.toNat) (rest : List Char) :
    unicodeEscape (u ++ rest) = .ok (some c, rest) := by
  have hvalid : c.toNat < 0xD800 ∨ 0xDFFF < c.toNat ∧ c.toNat < 0x110000 := c.valid
  have hlow : (decide (0xDC00 ≤ c.toNat) && decide (c.toNat ≤ 0xDFFF)) = false :=
    between_eq_false (by omega)
  have hhigh : (decide (0xD800 ≤ c.toNat) && decide (c.toNat ≤ 0xDBFF)) = false :=
    between_eq_false (by omega)
  simp only [unicodeEscape, hex4_append h, hlow, hhigh, Char.ofNat_toNat, Bool.false_eq_true, if_false]

theorem unicodeEscape_pair {c : Char} (hc : 0x10000 ≤ c.toNat) {u v : List Char}
    (hu : HexText u (0xD800 + (c.toNat - 0x10000) / 0x400)) (hv : HexText v (0xDC00 + (c.toNat - 0x10000) % 0x400))
    (rest : List Char) : unicodeEscape (u ++ '\\' :: 'u' :: (v ++ rest)) = .ok (some c, rest) := by
  have hvalid : c.toNat < 0xD800 ∨ 0xDFFF < c.toNat ∧ c.toNat < 0x110000 := c.valid
  set high := 0xD800 + (c.toNat - 0x10000) / 0x400 with hhigh
  set low := 0xDC00 + (c.toNat - 0x10000) % 0x400 with hlow
  have hsum : (high - 0xD800) * 0x400 + (low - 0xDC00) + 0x10000 = c.toNat := by omega
  have h₁ : (decide (0xDC00 ≤ high) && decide (high ≤ 0xDFFF)) = false :=
    between_eq_false (by omega)
  have h₂ : (decide (0xD800 ≤ high) && decide (high ≤ 0xDBFF)) = true :=
    between_eq_true (by omega)
  have h₃ : (decide (0xDC00 ≤ low) && decide (low ≤ 0xDFFF)) = true :=
    between_eq_true (by omega)
  simp only [unicodeEscape, hex4_append hu, hex4_append hv, h₁, h₂, h₃, hsum, Char.ofNat_toNat, Bool.false_eq_true,
    if_false, if_true]

theorem unicodeEscape_of_not_high {u : List Char} {n : Nat} (h : HexText u n)
    (hn : (decide (0xD800 ≤ n) && decide (n ≤ 0xDBFF)) = false) :
    ∃ o, ∀ rest, unicodeEscape (u ++ rest) = .ok (o, rest) := by
  by_cases hlow : (decide (0xDC00 ≤ n) && decide (n ≤ 0xDFFF)) = true
  · refine ⟨none, fun rest => ?_⟩
    simp only [unicodeEscape, hex4_append h, hlow, if_true]
  · refine ⟨some (Char.ofNat n), fun rest => ?_⟩
    simp only [unicodeEscape, hex4_append h, hlow, hn, Bool.false_eq_true, if_false]

/-! ## Strings -/

inductive StringText : List Char → Prop
  | nil : StringText []
  | plain {c : Char} {t : List Char} : ' ' ≤ c → c ≠ '"' → c ≠ '\\' → StringText t → StringText (c :: t)
  | short {e c : Char} {t : List Char} : (e, c) ∈ shortEscapes → StringText t → StringText ('\\' :: e :: t)
  | unicode {u t : List Char} {n : Nat} : HexText u n → StringText t → StringText ('\\' :: 'u' :: (u ++ t))

/-- A text between quotes, with any escapes, and the characters that it stands for. -/
inductive Spells : List Char → List Char → Prop
  | nil : Spells [] []
  | plain {c : Char} {t s : List Char} : ' ' ≤ c → c ≠ '"' → c ≠ '\\' → Spells t s → Spells (c :: t) (c :: s)
  | short {e c : Char} {t s : List Char} : (e, c) ∈ shortEscapes → Spells t s → Spells ('\\' :: e :: t) (c :: s)
  | unicode {c : Char} {u t s : List Char} : HexText u c.toNat → Spells t s →
    Spells ('\\' :: 'u' :: (u ++ t)) (c :: s)
  | pair {c : Char} {u v t s : List Char} : 0x10000 ≤ c.toNat →
    HexText u (0xD800 + (c.toNat - 0x10000) / 0x400) → HexText v (0xDC00 + (c.toNat - 0x10000) % 0x400) →
    Spells t s → Spells ('\\' :: 'u' :: (u ++ '\\' :: 'u' :: (v ++ t))) (c :: s)

section

variable {text : Option (List Char)} {c : Char} {cs : List Char}

theorem string_quote : string text ('"' :: cs) = .ok (text.map List.reverse, cs) := by
  rw [string]

theorem string_plain (hspace : ' ' ≤ c) (hquote : c ≠ '"') (hescape : c ≠ '\\') :
    string text (c :: cs) = string (text.map (c :: ·)) cs := by
  rw [string]
  · exact if_neg (Char.not_lt.mpr hspace)
  · exact hquote
  · exact fun h _ => hescape h
  · exact fun _ h _ => hescape h
  · exact fun _ _ h _ => hescape h

theorem string_short {e : Char} (h : (e, c) ∈ shortEscapes) :
    string text ('\\' :: e :: cs) = string (text.map (c :: ·)) cs := by
  obtain ⟨he, hu⟩ := escaped?_of_mem h
  rw [string]
  · simp only [he]
  · exact hu

theorem string_unicode {o : Option Char} {rest : List Char} (h : unicodeEscape cs = .ok (o, rest)) :
    string text ('\\' :: 'u' :: cs) = string (o.bind fun c => text.map (c :: ·)) rest := by
  rw [string]
  split
  · rename_i he
    rw [h] at he
    cases he
  · rename_i he
    rw [h] at he
    cases he
    rfl
  · rename_i he
    rw [h] at he
    cases he
    rfl

end

def isPlain (c : Char) : Bool :=
  ' ' ≤ c && c != '"' && c != '\\'

theorem spells_self {cs : List Char} (h : cs.all isPlain = true) : Spells cs cs := by
  induction cs with
  | nil => exact .nil
  | cons c cs ih =>
    rw [List.all_cons, Bool.and_eq_true] at h
    obtain ⟨hplain, hcs⟩ := h
    simp only [isPlain, Bool.and_eq_true, decide_eq_true_eq, bne_iff_ne] at hplain
    obtain ⟨⟨hspace, hquote⟩, hescape⟩ := hplain
    exact .plain hspace hquote hescape (ih hcs)

/-- A text is read as the characters that it spells, up to its closing quote. -/
theorem string_of_spells {t s : List Char} (h : Spells t s) (rest : List Char) :
    ∀ text, string (some text) (t ++ '"' :: rest) = .ok (some (text.reverse ++ s), rest) := by
  induction h with
  | nil =>
    intro text
    rw [List.nil_append, string_quote, Option.map_some, List.append_nil]
  | plain hspace hquote hescape _ ih =>
    intro text
    rw [List.cons_append, string_plain hspace hquote hescape, Option.map_some, ih]
    simp
  | short hmem _ ih =>
    intro text
    rw [List.cons_append, List.cons_append, string_short hmem, Option.map_some, ih]
    simp
  | unicode hu _ ih =>
    intro text
    rw [List.cons_append, List.cons_append, List.append_assoc, string_unicode (unicodeEscape_toNat hu _),
      Option.bind_some, Option.map_some, ih]
    simp
  | pair hc hu hv _ ih =>
    intro text
    rw [List.cons_append, List.cons_append, List.append_assoc, List.cons_append, List.cons_append, List.append_assoc,
      string_unicode (unicodeEscape_pair hc hu hv _), Option.bind_some, Option.map_some, ih]
    simp

/-- An escape takes at most the next one with it, and what is left is a text still. -/
theorem exists_unicodeEscape {u t : List Char} {n : Nat} (hu : HexText u n) (ht : StringText t) :
    ∃ o t', StringText t' ∧ t'.length ≤ t.length ∧
      ∀ rest, unicodeEscape (u ++ (t ++ '"' :: rest)) = .ok (o, t' ++ '"' :: rest) := by
  by_cases hhigh : (decide (0xD800 ≤ n) && decide (n ≤ 0xDBFF)) = true
  · have hlow : (decide (0xDC00 ≤ n) && decide (n ≤ 0xDFFF)) = false := by
      rw [Bool.and_eq_true, decide_eq_true_iff, decide_eq_true_iff] at hhigh
      exact between_eq_false (by omega)
    cases ht with
    | nil =>
      refine ⟨none, [], .nil, Nat.le_refl _, fun rest => ?_⟩
      simp [unicodeEscape, hex4_append hu, hlow, hhigh]
    | @plain c t hspace hquote hescape ht =>
      refine ⟨none, c :: t, .plain hspace hquote hescape ht, Nat.le_refl _, fun rest => ?_⟩
      simp [unicodeEscape, hex4_append hu, hlow, hhigh, hescape]
    | @short e c t hmem ht =>
      refine ⟨none, '\\' :: e :: t, .short hmem ht, Nat.le_refl _, fun rest => ?_⟩
      have he := (escaped?_of_mem hmem).2
      simp [unicodeEscape, hex4_append hu, hlow, hhigh, he]
    | @unicode v t m hv ht =>
      by_cases hpair : (decide (0xDC00 ≤ m) && decide (m ≤ 0xDFFF)) = true
      · refine ⟨some (Char.ofNat ((n - 0xD800) * 0x400 + (m - 0xDC00) + 0x10000)), t, ht, ?_, fun rest => ?_⟩
        · simp
          omega
        · simp [unicodeEscape, hex4_append hu, hex4_append hv, hlow, hhigh, hpair]
      · refine ⟨none, t, ht, ?_, fun rest => ?_⟩
        · simp
          omega
        · simp [unicodeEscape, hex4_append hu, hex4_append hv, hlow, hhigh, hpair]
  · obtain ⟨o, ho⟩ := unicodeEscape_of_not_high hu (Bool.eq_false_iff.mpr hhigh)
    exact ⟨o, t, ht, Nat.le_refl _, fun rest => ho _⟩

/-- Every string is read up to its closing quote, even if it spells no text. -/
theorem exists_string {t : List Char} (h : StringText t) (text : Option (List Char)) :
    ∃ o, ∀ rest, string text (t ++ '"' :: rest) = .ok (o, rest) := by
  -- by the length and not by the cases of `StringText`: an escape may take the next one with it
  induction hlen : t.length using Nat.strongRecOn generalizing t text with
  | _ n ih =>
    subst hlen
    cases h with
    | nil => exact ⟨_, fun rest => string_quote⟩
    | @plain c t hspace hquote hescape ht =>
      obtain ⟨o, ho⟩ := ih t.length (Nat.lt_succ_self _) ht (text.map (c :: ·)) rfl
      refine ⟨o, fun rest => ?_⟩
      rw [List.cons_append, string_plain hspace hquote hescape, ho]
    | @short e c t hmem ht =>
      obtain ⟨o, ho⟩ := ih t.length (Nat.lt_succ_of_lt (Nat.lt_succ_self _)) ht (text.map (c :: ·)) rfl
      refine ⟨o, fun rest => ?_⟩
      rw [List.cons_append, List.cons_append, string_short hmem, ho]
    | @unicode u t n hu ht =>
      obtain ⟨o₁, t', ht', hle, h₁⟩ := exists_unicodeEscape hu ht
      have hlt : t'.length < ('\\' :: 'u' :: (u ++ t)).length := by
        simp
        omega
      obtain ⟨o, ho⟩ := ih t'.length hlt ht' (o₁.bind fun c => text.map (c :: ·)) rfl
      refine ⟨o, fun rest => ?_⟩
      rw [List.cons_append, List.cons_append, List.append_assoc, string_unicode (h₁ rest), ho]

/-! ## Numbers -/

def Digits (ds : List Char) : Prop :=
  ds ≠ [] ∧ ∀ c ∈ ds, c.isDigit = true

inductive FractionText : List Char → Prop
  | none : FractionText []
  | some {ds : List Char} : Digits ds → FractionText ('.' :: ds)

inductive PowerText : List Char → Prop
  | none : PowerText []
  | some {e : Char} {sign ds : List Char} : e ∈ ['e', 'E'] → sign ∈ [[], ['+'], ['-']] → Digits ds →
    PowerText (e :: (sign ++ ds))

inductive NumberText : List Char → Prop
  | mk {sign whole f p : List Char} : sign ∈ [[], ['-']] → Digits whole →
    (whole.head? = some '0' → whole = ['0']) → FractionText f → PowerText p →
    NumberText (sign ++ (whole ++ (f ++ p)))

def DigitFree (rest : List Char) : Prop :=
  ∀ c ∈ rest.head?, c.isDigit = false

theorem Delimited.digitFree {rest : List Char} (h : Delimited rest) : DigitFree rest := by
  intro c hc
  have hall : ∀ c ∈ [' ', '\n', '\t', '\r', ',', ']', '}'], c.isDigit = false := by simp
  exact hall c (h c hc)

theorem digits_append {ds rest : List Char} (h : Digits ds) (hrest : DigitFree rest) :
    digits (ds ++ rest) = .ok (ds, rest) := by
  unfold digits
  rw [takeWhile_run h.2 hrest, dropWhile_run h.2 hrest]
  cases ds with
  | nil => exact absurd rfl h.1
  | cons d ds => rfl

theorem fraction_absent {rest : List Char} (h : rest.head? ≠ some '.') : fraction rest = .ok ([], rest) := by
  unfold fraction
  split
  · exact absurd rfl h
  · rfl

theorem exponent_absent {rest : List Char} (h : Delimited rest) : exponent rest = .ok (none, rest) := by
  cases rest with
  | nil => rfl
  | cons c rest =>
    have hall : ∀ c ∈ [' ', '\n', '\t', '\r', ',', ']', '}'], ¬(decide (c = 'e') || decide (c = 'E')) = true := by
      simp
    exact if_neg (hall c (h c rfl))

theorem Delimited.head?_ne_point {rest : List Char} (h : Delimited rest) : rest.head? ≠ some '.' := by
  intro hhead
  have := h _ hhead
  simp at this

theorem exists_fraction {f : List Char} (h : FractionText f) : ∃ part, ∀ rest, DigitFree rest →
    rest.head? ≠ some '.' → fraction (f ++ rest) = .ok (part, rest) := by
  cases h with
  | none => exact ⟨[], fun rest _ hpoint => fraction_absent hpoint⟩
  | @some ds hds => exact ⟨ds, fun rest hfree _ => digits_append hds hfree⟩

theorem exists_exponent {p : List Char} (h : PowerText p) : ∃ power, ∀ rest, Delimited rest →
    exponent (p ++ rest) = .ok (power, rest) := by
  cases h with
  | none => exact ⟨Option.none, fun rest hrest => exponent_absent hrest⟩
  | @some e sign ds he hsign hds =>
    have hsigned : ∃ minus, ∀ rest, signed (sign ++ (ds ++ rest)) = (minus, ds ++ rest) := by
      simp only [List.mem_cons, List.not_mem_nil, or_false] at hsign
      rcases hsign with rfl | rfl | rfl
      · refine ⟨false, fun rest => ?_⟩
        cases ds with
        | nil => exact absurd rfl hds.1
        | cons d ds =>
          have hd := hds.2 d (List.mem_cons_self ..)
          rw [List.nil_append, List.cons_append]
          unfold signed
          split
          · rename_i heq
            cases heq
            cases hd
          · rename_i heq
            cases heq
            cases hd
          · rfl
      · exact ⟨false, fun rest => rfl⟩
      · exact ⟨true, fun rest => rfl⟩
    obtain ⟨minus, hsigned⟩ := hsigned
    refine ⟨Option.some (if minus then -(numberOf 10 ds : Int) else numberOf 10 ds), fun rest hrest => ?_⟩
    have he' : (decide (e = 'e') || decide (e = 'E')) = true := by
      simpa using he
    rw [List.cons_append, List.append_assoc]
    simp only [exponent, he', if_true, hsigned, digits_append hds hrest.digitFree]

/-- The point and the power come where no digit is. -/
theorem digitFree_parts {f p rest : List Char} (hf : FractionText f) (hp : PowerText p) (hrest : Delimited rest) :
    DigitFree (f ++ (p ++ rest)) ∧ DigitFree (p ++ rest) ∧ (p ++ rest).head? ≠ some '.' := by
  have hpower : DigitFree (p ++ rest) ∧ (p ++ rest).head? ≠ some '.' := by
    cases hp with
    | none => exact ⟨hrest.digitFree, hrest.head?_ne_point⟩
    | some he _ _ =>
      have hall : ∀ e ∈ ['e', 'E'], Char.isDigit e = false ∧ e ≠ '.' := by simp
      refine ⟨fun c hc => ?_, fun h => ?_⟩
      · cases hc
        exact (hall _ he).1
      · cases h
        exact (hall _ he).2 rfl
  refine ⟨?_, hpower⟩
  cases hf with
  | none => exact hpower.1
  | some _ =>
    intro c hc
    cases hc
    rfl

theorem exists_number {whole f p : List Char} (negative : Bool) (hwhole : Digits whole)
    (hzero : whole.head? = some '0' → whole = ['0']) (hf : FractionText f) (hp : PowerText p) :
    ∃ n, ∀ rest, Delimited rest → number negative (whole ++ (f ++ p) ++ rest) = .ok (n, rest) := by
  obtain ⟨part, hpart⟩ := exists_fraction hf
  obtain ⟨power, hpower⟩ := exists_exponent hp
  have hlead : (decide (whole.head? = some '0') && whole.length != 1) = false := by
    by_cases h : whole.head? = some '0'
    · rw [hzero h]
      rfl
    · simp [h]
  refine ⟨⟨negative, (leading (leading 0 whole).1 part).1,
    power.getD 0 + (leading 0 whole).2 + (leading (leading 0 whole).1 part).2 - part.length,
    part.isEmpty && power.isNone⟩, fun rest hrest => ?_⟩
  obtain ⟨hfree, hfree', hpoint⟩ := digitFree_parts hf hp hrest
  rw [List.append_assoc, List.append_assoc]
  simp only [number, digits_append hwhole hfree, hlead, Bool.false_eq_true, if_false, hpart _ hfree' hpoint, hpower _ hrest]

theorem scalar_minus {cs rest : List Char} {n : Number} (h : number true cs = .ok (n, rest)) :
    scalar ('-' :: cs) = (.number n, some rest) := by
  simp only [scalar, h]

theorem scalar_digit {c : Char} {cs rest : List Char} {n : Number} (hc : c.isDigit = true)
    (h : number false (c :: cs) = .ok (n, rest)) : scalar (c :: cs) = (.number n, some rest) := by
  have hdigit : ∀ d ∈ ['n', 't', 'f', '"', '-'], d.isDigit = false := by simp
  have hall : ∀ d ∈ ['n', 't', 'f', '"', '-'], c ≠ d := by
    rintro d hd rfl
    rw [hdigit c hd] at hc
    cases hc
  simp only [List.forall_mem_cons] at hall
  obtain ⟨hn, ht, hf, hq, hm, -⟩ := hall
  rw [scalar]
  · simp only [hc, if_true, h]
  · exact hn
  · exact ht
  · exact hf
  · exact hq
  · exact hm

theorem NumberText.starts {t : List Char} (h : NumberText t) : ∃ c t', t = c :: t' ∧ (c.isDigit = true ∨ c = '-') := by
  obtain @⟨sign, whole, f, p, hsign, hwhole, -, -, -⟩ := h
  simp only [List.mem_cons, List.not_mem_nil, or_false] at hsign
  rcases hsign with rfl | rfl
  · cases whole with
    | nil => exact absurd rfl hwhole.1
    | cons d ds => exact ⟨d, _, rfl, .inl (hwhole.2 d (List.mem_cons_self ..))⟩
  · exact ⟨'-', _, rfl, .inr rfl⟩

theorem exists_scalar_number {t : List Char} (h : NumberText t) :
    ∃ n, ∀ rest, Delimited rest → scalar (t ++ rest) = (.number n, some rest) := by
  obtain @⟨sign, whole, f, p, hsign, hwhole, hzero, hf, hp⟩ := h
  simp only [List.mem_cons, List.not_mem_nil, or_false] at hsign
  rcases hsign with rfl | rfl
  · obtain ⟨n, hn⟩ := exists_number false hwhole hzero hf hp
    refine ⟨n, fun rest hrest => ?_⟩
    have := hn rest hrest
    cases whole with
    | nil => exact absurd rfl hwhole.1
    | cons d ds => exact scalar_digit (hwhole.2 d (List.mem_cons_self ..)) this
  · obtain ⟨n, hn⟩ := exists_number true hwhole hzero hf hp
    exact ⟨n, fun rest hrest => scalar_minus (hn rest hrest)⟩

/-! ## Integers -/

theorem digits_toDigits (n : Nat) : Digits (Nat.toDigits 10 n) :=
  ⟨Nat.toDigits_ne_nil, fun _ hc => Nat.isDigit_of_mem_toDigits (by decide) (by decide) hc⟩

theorem head?_toDigits {n : Nat} (hn : n ≠ 0) : (Nat.toDigits 10 n).head? ≠ some '0' := by
  induction n using Nat.strongRecOn with
  | _ n ih =>
    rcases Nat.lt_or_ge n 10 with hlt | hge
    · rw [Nat.toDigits_of_lt_base hlt, List.head?_cons]
      intro h
      exact hn (Nat.digitChar_eq_zero.mp (Option.some.inj h))
    · have := ih (n / 10) (by omega) (by omega)
      rw [Nat.toDigits_of_base_le (by decide) hge]
      cases h : Nat.toDigits 10 (n / 10) with
      | nil => exact absurd h Nat.toDigits_ne_nil
      | cons d ds =>
        rw [h] at this
        exact this

theorem le_ofDigitChars (ds : List Char) : ∀ n, n ≤ Nat.ofDigitChars 10 ds n := by
  induction ds with
  | nil => exact fun n => Nat.le_refl n
  | cons d ds ih =>
    intro n
    rw [Nat.ofDigitChars_cons]
    have := ih (10 * n + (d.toNat - '0'.toNat))
    omega

/-- A number that has room is read without loss. -/
theorem leading_digits {ds : List Char} (hds : ∀ c ∈ ds, c.isDigit = true) : ∀ {n : Nat},
    Nat.ofDigitChars 10 ds n ≤ maxNumber → leading n ds = (Nat.ofDigitChars 10 ds n, 0) := by
  induction ds with
  | nil => exact fun _ => rfl
  | cons d ds ih =>
    intro n hn
    have hd := numberOf_digit (hds d (List.mem_cons_self ..))
    rw [Nat.ofDigitChars_cons] at hn ⊢
    have hle := le_ofDigitChars ds (10 * n + (d.toNat - '0'.toNat))
    rw [leading, hd, Nat.add_comm, if_pos (Nat.le_trans hle hn)]
    exact ih (fun c hc => hds c (List.mem_cons_of_mem _ hc)) hn

theorem number_toDigits (negative : Bool) {n : Nat} (hn : n ≤ maxNumber) (hpos : n ≠ 0) {rest : List Char}
    (hrest : Delimited rest) : number negative (Nat.toDigits 10 n ++ rest) = .ok (⟨negative, n, 0, true⟩, rest) := by
  have hvalue : Nat.ofDigitChars 10 (Nat.toDigits 10 n) 0 = n := Nat.ofDigitChars_toDigits (by decide) (by decide)
  have hlead := leading_digits (digits_toDigits n).2 (hvalue.symm ▸ hn)
  rw [hvalue] at hlead
  simp [number, digits_append (digits_toDigits n) hrest.digitFree, head?_toDigits hpos,
    fraction_absent hrest.head?_ne_point, exponent_absent hrest, hlead, leading]

theorem rounded_le (n : Nat) : Number.rounded n ≤ 2 * n + 1 := by
  have hunit : 2 ^ (n.log2 - 52) ≤ n + 1 ∧ 0 < 2 ^ (n.log2 - 52) := by
    refine ⟨?_, Nat.pow_pos (by decide)⟩
    by_cases hn : n = 0
    · subst hn
      decide
    · have h₁ : 2 ^ (n.log2 - 52) ≤ 2 ^ n.log2 := Nat.pow_le_pow_right (by decide) (Nat.sub_le ..)
      have h₂ := Nat.log2_self_le hn
      omega
  have hmul := Nat.div_mul_le_self n (2 ^ (n.log2 - 52))
  have hsplit : (n / 2 ^ (n.log2 - 52) + 1) * 2 ^ (n.log2 - 52) =
      n / 2 ^ (n.log2 - 52) * 2 ^ (n.log2 - 52) + 2 ^ (n.log2 - 52) := Nat.succ_mul ..
  unfold Number.rounded
  simp only [Nat.pow_eq]
  split
  · omega
  · omega

theorem overflows_eq_false (negative plain : Bool) {n : Nat} (hn : n ≤ maxNumber) :
    Number.overflows ⟨negative, n, 0, plain⟩ = false := by
  have hround := rounded_le n
  have hone : Number.rounded (Nat.pow 10 (Int.toNat 0)) = 1 := by decide
  have hbound : 2 * maxNumber + 1 < Number.overflowBound := by decide +kernel
  have hlt : ¬Number.overflowBound ≤ Number.rounded n * Number.rounded (Nat.pow 10 (Int.toNat 0)) := by
    rw [hone, Nat.mul_one]
    omega
  unfold Number.overflows
  simp only [decide_eq_false hlt]
  simp [Number.maxPower]

theorem toList_toString {i : Int} : (toString i).toList =
    (if i < 0 then ['-'] else []) ++ (Nat.toDigits 10 i.natAbs ++ ([] ++ [])) := by
  rw [Int.toString_eq_repr, Int.repr_eq_if, List.append_nil, List.append_nil]
  by_cases hneg : i < 0
  · have habs : (-i).toNat = i.natAbs := by omega
    rw [if_pos hneg, if_neg (by omega), String.toList_append, Nat.toList_repr, habs]
    rfl
  · have habs : i.toNat = i.natAbs := by omega
    rw [if_neg hneg, if_pos (by omega), Nat.toList_repr, habs]
    rfl

theorem numberText_toString {i : Int} (hne : i ≠ 0) : NumberText (toString i).toList := by
  rw [toList_toString]
  refine .mk ?_ (digits_toDigits _) ?_ .none .none
  · split <;> decide
  · exact fun h => absurd h (head?_toDigits (Int.natAbs_ne_zero.mpr hne))

/-- An integer of 64 bits is read as a number that is this integer. -/
theorem exists_integer {i : Int} (hne : i ≠ 0) (hlow : -0x8000000000000000 ≤ i) (hhigh : i < 0x8000000000000000) :
    ∃ n : Number, (∀ rest, Delimited rest → scalar ((toString i).toList ++ rest) = (.number n, some rest)) ∧
      n.overflows = false ∧ n.int64? = some i := by
  have hroom : i.natAbs ≤ maxNumber := by
    unfold maxNumber
    omega
  refine ⟨⟨decide (i < 0), i.natAbs, 0, true⟩, fun rest hrest => ?_, overflows_eq_false _ _ hroom, ?_⟩
  · have hnumber := number_toDigits (decide (i < 0)) hroom (Int.natAbs_ne_zero.mpr hne) hrest
    rw [toList_toString, List.append_nil, List.append_nil]
    by_cases hneg : i < 0
    · rw [if_pos hneg]
      rw [decide_eq_true hneg] at hnumber ⊢
      exact scalar_minus hnumber
    · rw [if_neg hneg]
      rw [decide_eq_false hneg] at hnumber ⊢
      have hdigits := digits_toDigits i.natAbs
      cases h : Nat.toDigits 10 i.natAbs with
      | nil => exact absurd h hdigits.1
      | cons d ds =>
        rw [h] at hnumber hdigits
        exact scalar_digit (hdigits.2 d (List.mem_cons_self ..)) hnumber
  · have hvalue : (if decide (i < 0) = true then -(i.natAbs : Int) else (i.natAbs : Int)) = i := by
      split <;> grind
    simp only [Number.int64?, hvalue]
    simp
    omega

end Highlight.Json
