import Highlight.Proofs.Compiled
import Highlight.Proofs.PlainNames
import Highlight.Proofs.Seen
import Highlight.Regex.Search
import Mathlib.Data.List.Nodup

/-!
# Names are lexically scoped

While a grammar is laid out a rule is known by its address, so what a name means is the rule
that was first met at an address. The address of a named rule joins the names on the way to it
with strokes, and a name may hold strokes itself; the patterns of a capture see no repository
of the capture. Where no two rules share an address and captures bring nothing along, each
rule of the compiled grammar is the one at a place, once, and what it refers to are the rules
at the places that its names mean.
-/

namespace Highlight.Grammar

theorem idxOf_map {α β : Type} [BEq α] [LawfulBEq α] [BEq β] [LawfulBEq β] {f : α → β} {x : α} :
    ∀ {l : List α}, (∀ y ∈ l, f y = f x → y = x) → (l.map f).idxOf (f x) = l.idxOf x
  | [], _ => rfl
  | y :: l, h => by
    have ih := idxOf_map (f := f) (x := x) fun z hz => h z (List.mem_cons_of_mem y hz)
    rw [List.map_cons, List.idxOf_cons, List.idxOf_cons, ih]
    by_cases hy : y = x
    · subst hy
      rw [beq_self_eq_true, beq_self_eq_true]
    · have hf : ¬f y = f x := fun he => hy (h y (List.mem_cons_self ..) he)
      rw [beq_eq_false_iff_ne.mpr hy, beq_eq_false_iff_ne.mpr hf]

/-! ## Lexical scope -/

namespace GrammarSource

variable (engine : Engine) (g : GrammarSource)

/-- The places are those of the rules of a compiled grammar, which refer to one another as the
names in it say. -/
structure Lexical (G : Grammar) (places : List Place) : Prop where
  top : places.head? = some .top
  once : places.Nodup
  rules : List.Forall₂ (fun p r => ∃ site, g.site? p = some site ∧
    ((g.ruleAt p site.body).renumber places.idxOf).read (readPattern engine G.scopeName) = .ok r) places G.rules.toList
  closed : ∀ p ∈ places, ∀ site, g.site? p = some site → ∀ q ∈ (g.ruleAt p site.body).keys, q ∈ places

end GrammarSource

variable {engine : Engine} {g : GrammarSource} {p q : Place} {n : Node}

theorem findIn_filter {name : String} {keep : Place × Entries → Bool} :
    ∀ {chain : List (Place × Entries)}, (∀ e ∈ chain, keep e = false → e.2 = []) →
      findIn name (chain.filter keep) = findIn name chain
  | [], _ => rfl
  | (p, entries) :: chain, h => by
    have ih : findIn name (chain.filter keep) = findIn name chain :=
      findIn_filter fun e he => h e (List.mem_cons_of_mem _ he)
    by_cases hkeep : keep (p, entries) = true
    · rw [List.filter_cons, if_pos hkeep, findIn, findIn, ih]
    · have hnone : entries = [] := h _ (List.mem_cons_self ..) (by simpa using hkeep)
      rw [List.filter_cons, if_neg hkeep, findIn, hnone, ih]
      rfl

namespace GrammarSource

/-- Captures without repositories hide none. -/
theorem findIn_inSight (hg : g.CapturesBringNone) (p : Place) (name : String) :
    findIn name (g.inSight p) = findIn name (g.repositories p) := by
  refine findIn_filter fun e he hcapture => ?_
  obtain ⟨before, after, hsplit⟩ := List.append_of_mem he
  obtain ⟨_, site, hsite, hentries⟩ := repositories_suffix hsplit
  rw [← hentries]
  exact hg _ site hsite (by simpa using hcapture)

/-- What a rule refers to is there. -/
theorem site?_of_mem_keys {site : Site} (hs : g.site? p = some site) (hq : q ∈ (g.ruleAt p site.body).keys) :
    (g.site? q).isSome :=
  site?_of_mem_keys_toRule (List.Subset.refl _) hs hq

theorem seen_eq (hg : g.CapturesBringNone) (p : Place) (ps : List RuleSource) : g.seen p ps = g.meanings p ps := by
  unfold seen meanings
  congr 1
  funext x
  exact meantIn_congr (findIn_inSight hg p) x.2 x.1

end GrammarSource

/-- The rules of nodes are those at their places. -/
theorem Node.Fits.rule_eq (hn : n.Fits g p) (hg : g.CapturesBringNone) :
    n.rule = (g.ruleAt p n.body).renumber Place.address := by
  obtain ⟨site, hs, hb⟩ := hn.site
  have htargets : g.seen p = g.meanings p := funext (GrammarSource.seen_eq hg p)
  rw [hn.rule_eq_seen, GrammarSource.seenRule_eq hs, hb, GrammarSource.seenAt, htargets]
  rfl

/-- Where addresses tell rules apart, and captures bring nothing along, names are lexically scoped. -/
theorem compile_lexical {G : Grammar} (h : compile engine g = .ok G) (hkeys : g.KeysApart) (hcaptures : g.CapturesBringNone) :
    ∃ places, g.Lexical engine G places := by
  obtain ⟨place, hplace⟩ : ∃ place : Node → Place, ∀ n ∈ (g.draft G.scopeName).nodes, n.Fits g (place n) := by
    classical
    refine ⟨fun n => if hn : ∃ p, n.Fits g p then hn.choose else .top, fun n hn => ?_⟩
    have hfits := GrammarSource.fits_of_mem_draft hn
    simp only [dif_pos hfits]
    exact hfits.choose_spec
  let places := (g.draft G.scopeName).nodes.map place
  have haddresses : places.map Place.address = (g.draft G.scopeName).addresses := by
    rw [List.map_map]
    exact List.map_congr_left fun n hn => (hplace n hn).address.symm
  have hsite {p : Place} (hp : p ∈ places) : (g.site? p).isSome := by
    obtain ⟨n, hn, rfl⟩ := List.mem_map.mp hp
    obtain ⟨site, hs, _⟩ := (hplace n hn).site
    rw [hs]
    rfl
  -- a rule that is referred to has been laid out at its address, so at its place
  have hmem {n : Node} {q : Place} (hn : n ∈ (g.draft G.scopeName).nodes)
      (hq : q ∈ (g.ruleAt (place n) n.body).keys) : q ∈ places ∧ (g.site? q).isSome := by
    obtain ⟨site, hs, hb⟩ := (hplace n hn).site
    have hqsite := GrammarSource.site?_of_mem_keys hs (hb ▸ hq)
    have hkey : q.address ∈ n.rule.keys := by
      rw [(hplace n hn).rule_eq hcaptures, Rule.keys_renumber]
      exact List.mem_map_of_mem hq
    have haddress := GrammarSource.keys_of_mem_draft hn hkey
    rw [← haddresses] at haddress
    obtain ⟨q', hq', ha⟩ := List.mem_map.mp haddress
    rw [hkeys q' q (hsite hq') hqsite ha] at hq'
    exact ⟨hq', hqsite⟩
  refine ⟨places, ?_, ?_, ?_, ?_⟩
  · have hroot : (rootNode g G.scopeName).Fits g (place (rootNode g G.scopeName)) :=
      hplace _ (List.mem_of_mem_head? GrammarSource.head?_draft)
    rw [List.head?_map, GrammarSource.head?_draft, Option.map_some, Place.eq_top_of_address hroot.address.symm]
  · refine List.Nodup.of_map Place.address ?_
    rw [haddresses]
    exact GrammarSource.nodup_draft
  · refine List.forall₂_map_left_iff.mpr (List.Forall₂.imp ?_ ((List.forall₂_and_left _ _).mpr ⟨fun n hn => hn, (compile_eq_ok h).2⟩))
    rintro n r ⟨hn, hread⟩
    obtain ⟨site, hs, hb⟩ := (hplace n hn).site
    refine ⟨site, hs, ?_⟩
    rw [(hplace n hn).rule_eq hcaptures, Rule.renumber_renumber] at hread
    rw [hb, ← hread]
    congr 1
    refine Rule.renumber_congr fun q hq => ?_
    rw [Function.comp, ← haddresses]
    exact (idxOf_map fun q' hq' ha => hkeys q' q (hsite hq') (hmem hn hq).2 ha).symm
  · intro p hp site hs q hq
    obtain ⟨n, hn, rfl⟩ := List.mem_map.mp hp
    obtain ⟨site', hs', hb⟩ := (hplace n hn).site
    rw [hs, Option.some.injEq] at hs'
    subst hs'
    exact (hmem hn (hb ▸ hq)).1

/-- What a rule refers to are the rules at the places that are meant. -/
theorem GrammarSource.Lexical.refers {G : Grammar} {places : List Place} (h : g.Lexical engine G places) {i : Nat} {site : Site}
    {r : Rule Nat Pattern} (hp : places[i]? = some p) (hs : g.site? p = some site) (hr : G.rules[i]? = some r) :
    r.keys.map (places[·]?) = (g.ruleAt p site.body).keys.map some ∧
      ((g.ruleAt p site.body).renumber places.idxOf).read (readPattern engine G.scopeName) = .ok r := by
  obtain ⟨hi, rfl⟩ := List.getElem?_eq_some_iff.mp hp
  rw [← Array.getElem?_toList] at hr
  obtain ⟨hj, rfl⟩ := List.getElem?_eq_some_iff.mp hr
  obtain ⟨site', hs', hread⟩ := h.rules.get hi hj
  simp only [List.get_eq_getElem] at hs' hread
  rw [hs, Option.some.injEq] at hs'
  subst hs'
  refine ⟨?_, hread⟩
  rw [Rule.keys_of_read hread, Rule.keys_renumber, List.map_map]
  refine List.map_congr_left fun q hq => ?_
  have hmem := h.closed _ (List.getElem_mem hi) site hs q hq
  rw [Function.comp, List.getElem?_eq_getElem (List.idxOf_lt_length_of_mem hmem), List.getElem_idxOf]

/-! ## A name that shadows another -/

namespace Shadows

def reference (name : String) : RuleSource :=
  { RuleSource.empty with reference := some name }

def piece (pattern name : String) : RuleSource :=
  { RuleSource.empty with pattern := some pattern, name := some name }

def region : RuleSource :=
  { RuleSource.empty with
    opening := some "<"
    closing := some ">"
    patterns := [reference "#word"]
    repository := [("word", piece "w" "inside")] }

def source : GrammarSource where
  name := none
  scopeName := some "s"
  patterns := [region, reference "#word"]
  repository := [("word", piece "w" "outside")]

theorem plain_reference (name : String) : (reference name).Plain :=
  RuleSource.plain_of (fun use => by cases use <;> rfl) (List.forall_mem_nil _) (List.forall_mem_nil _)
    (List.forall_mem_nil _)

theorem plain_piece (pattern name : String) : (piece pattern name).Plain :=
  RuleSource.plain_of (fun use => by cases use <;> rfl) (List.forall_mem_nil _) (List.forall_mem_nil _)
    (List.forall_mem_nil _)

theorem plain_region : region.Plain := by
  refine RuleSource.plain_of (fun use => by cases use <;> rfl) ?_ ?_ ?_
  · simp [region]
  · simp [region, plain_piece]
  · simp [region, plain_reference]

theorem plain_source : source.Plain where
  patterns := by simp [source, plain_region, plain_reference]
  repository := by simp [source, plain_piece]

def letter (c : Char) : Pattern :=
  ⟨c.toString, .text [c], 0⟩

def grammar : Grammar where
  name := none
  scopeName := "s"
  rules := #[.container [1, 3],
    .region ⟨none, none, letter '<', [], .fixed (letter '>'), [], [2], .untilClosed false⟩,
    .piece (some "inside") (letter 'w') [], .piece (some "outside") (letter 'w') []]
  candidates := #[[1, 3], [2], [], []]
  candidates_eq := by cbv

theorem compile_source : compile .backtracking source = .ok grammar := by cbv

end Shadows

theorem compile_lexical_shadows :
    compile .backtracking Shadows.source = .ok Shadows.grammar ∧ Shadows.source.KeysApart ∧ Shadows.source.CapturesBringNone ∧
      ∃ places, Shadows.source.Lexical .backtracking Shadows.grammar places :=
  ⟨Shadows.compile_source, Shadows.plain_source.keysApart, Shadows.plain_source.capturesBringNone,
    compile_lexical Shadows.compile_source Shadows.plain_source.keysApart Shadows.plain_source.capturesBringNone⟩

/-! ## Names that meet -/

namespace Meeting

open Shadows (reference piece letter)

/-- The rules named b/c, in a, and c, in a/b, have the same address. -/
def source : GrammarSource where
  name := none
  scopeName := some "s"
  patterns := [reference "#a", reference "#a/b"]
  repository := [
    ("a", { RuleSource.empty with patterns := [reference "#b/c"], repository := [("b/c", piece "x" "one")] }),
    ("a/b", { RuleSource.empty with patterns := [reference "#c"], repository := [("c", piece "y" "two")] })]

def grammar : Grammar where
  name := none
  scopeName := "s"
  rules := #[.container [1, 3], .container [2], .piece (some "one") (letter 'x') [], .container [2]]
  candidates := #[[2], [2], [], [2]]
  candidates_eq := by cbv

theorem compile_source : compile .backtracking source = .ok grammar := by cbv

end Meeting

/-- The name c means the rule named b/c, which was met before. -/
theorem Meeting.compile_not_lexical :
    ∃ G, compile .backtracking source = .ok G ∧ ¬∃ places, source.Lexical .backtracking G places := by
  refine ⟨grammar, compile_source, ?_⟩
  rintro ⟨places, h⟩
  have htop : places[0]? = some .top := by rw [← List.head?_eq_getElem?, h.top]
  have hroot : [places[1]?, places[3]?] = [some (.named .top "a"), some (.named .top "a/b")] :=
    (h.refers htop rfl rfl).1.trans rfl
  rw [List.cons.injEq, List.cons.injEq] at hroot
  have hfirst : [places[2]?] = [some (.named (.named .top "a") "b/c")] :=
    (h.refers hroot.1 rfl rfl).1.trans rfl
  have hsecond : [places[2]?] = [some (.named (.named .top "a/b") "c")] :=
    (h.refers hroot.2.1 rfl rfl).1.trans rfl
  rw [hfirst] at hsecond
  exact absurd hsecond (by decide)

/-! ## A repository of a capture -/

namespace Inside

open Shadows (reference piece letter)

def source : GrammarSource where
  name := none
  scopeName := some "s"
  patterns := [{ RuleSource.empty with
    pattern := some "w"
    captures := [("0", { RuleSource.empty with
      patterns := [reference "#word"]
      repository := [("word", piece "w" "inside")] })] }]
  repository := [("word", piece "w" "outside")]

def grammar : Grammar where
  name := none
  scopeName := "s"
  rules := #[.container [1], .piece none (letter 'w') [⟨0, none, some 2⟩], .container [3],
    .piece (some "outside") (letter 'w') []]
  candidates := #[[1], [], [3], []]
  candidates_eq := by cbv

theorem compile_source : compile .backtracking source = .ok grammar := by cbv

end Inside

theorem Inside.not_lexical :
    ∃ G, compile .backtracking source = .ok G ∧ ¬∃ places, source.Lexical .backtracking G places := by
  refine ⟨grammar, compile_source, ?_⟩
  rintro ⟨places, h⟩
  have htop : places[0]? = some .top := by rw [← List.head?_eq_getElem?, h.top]
  have hroot : [places[1]?] = [some (.inner .top (.pattern 0))] := (h.refers htop rfl rfl).1.trans rfl
  have hpiece : [places[2]?] = [some (.inner (.inner .top (.pattern 0)) (.capture .piece "0"))] :=
    (h.refers (List.cons.inj hroot).1 rfl rfl).1.trans (by cbv)
  have hcapture : [places[3]?] = [some (.named (.inner (.inner .top (.pattern 0)) (.capture .piece "0")) "word")] :=
    (h.refers (List.cons.inj hpiece).1 rfl rfl).1.trans rfl
  obtain ⟨_, _, hrule⟩ := Rule.read_piece.mp (h.refers (List.cons.inj hcapture).1 rfl rfl).2
  exact absurd (Rule.piece.inj hrule).1 (by decide)

end Highlight.Grammar
