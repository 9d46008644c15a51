import Highlight.Proofs.LexicalScope
import Highlight.Proofs.Renumbering
import Highlight.Proofs.Reordering
import Mathlib.Tactic.Choose

/-!
# The order of captures does not matter

A grammar is laid out with one draft, which all captures add to, so that in another order rules
are met at other times and get other numbers. But what is laid out in the end is what is reached
from the top, and each rule is the one that is seen at its place. So in another order the same
rules are compiled, with other numbers, and texts are highlighted the same.
-/

namespace Highlight

namespace Rule

variable {ι κ π ρ ε : Type} {parse : π → Except ε ρ}

def CapturesSorted : Rule ι π → Prop
  | container _ => True
  | piece _ _ cs => cs.Pairwise fun c d => c.group ≤ d.group
  | region r => (r.openingCaptures.Pairwise fun c d => c.group ≤ d.group) ∧
      r.closingCaptures.Pairwise fun c d => c.group ≤ d.group

theorem CapturesSorted.renumber {r : Rule ι π} (h : r.CapturesSorted) (f : ι → κ) : (r.renumber f).CapturesSorted := by
  cases r with
  | container ps => trivial
  | piece name p cs => exact List.pairwise_map.mpr h
  | region r => exact ⟨List.pairwise_map.mpr h.1, List.pairwise_map.mpr h.2⟩

theorem CapturesSorted.of_read {r : Rule ι π} {r' : Rule ι ρ} (h : r.CapturesSorted) (hr : r.read parse = .ok r') :
    r'.CapturesSorted := by
  cases r with
  | container ps =>
    rw [read_container.mp hr]
    trivial
  | piece name p cs =>
    obtain ⟨q, _, rfl⟩ := read_piece.mp hr
    exact h
  | region r =>
    obtain ⟨opening, closing, _, _, rfl⟩ := read_region.mp hr
    exact h

end Rule

namespace Grammar

variable {engine : Engine} {g : GrammarSource} {p q : Place} {n m : Node} {scopeName : String}

/-! ## What is laid out is what is reached -/

namespace Node

theorem address_mem_targets {ps : List RuleSource} (h : .visit m ∈ n.patternSteps ps) :
    m.address ∈ (n.targets ps).map (·.address) := by
  obtain ⟨t, ht, hm⟩ := visit_mem_patternSteps.mp h
  obtain ⟨_, _, htarget⟩ := List.mem_filterMap.mp ht
  rcases node_of_target? htarget with ⟨k, hk, ha⟩ | ⟨hnone, _⟩
  · rw [hm, Option.some.injEq] at hk
    exact List.mem_map.mpr ⟨t, ht, by rw [← ha, hk]⟩
  · rw [hm] at hnone
    cases hnone

theorem address_mem_captures {s : RuleSource} {use : CaptureUse} (h : .visit m ∈ n.captureSteps s use) :
    m.address ∈ (n.captures s use).filterMap (·.patterns) := by
  obtain ⟨c, hc⟩ := visit_mem_captureSteps.mp h
  refine List.mem_filterMap.mpr ⟨c, mem_captures.mpr ⟨_, hc⟩, ?_⟩
  obtain ⟨⟨key, source⟩, _, hc⟩ := List.mem_filterMap.mp hc
  obtain ⟨group, _, hc⟩ := Option.map_eq_some_iff.mp hc
  split at hc
  · cases hc
  · cases hc
    rfl

/-- A rule refers to what it leads on to. -/
theorem address_mem_keys (h : .visit m ∈ n.steps) : m.address ∈ n.rule.keys := by
  unfold steps at h
  unfold rule Rule.keys
  cases hb : n.body with
  | group ps =>
    simp only [hb] at h ⊢
    exact List.mem_append_left _ (address_mem_targets h)
  | rule s =>
    simp only [hb] at h ⊢
    cases hs : s.shape with
    | group =>
      simp only [hs] at h ⊢
      exact List.mem_append_left _ (address_mem_targets h)
    | piece p =>
      simp only [hs] at h ⊢
      rcases List.mem_cons.mp h with h | h
      · cases h
      · exact List.mem_append_right _ (address_mem_captures h)
    | region opening closing lasting =>
      simp only [hs] at h ⊢
      simp only [List.cons_append, List.mem_cons, List.mem_append, List.mem_map, reduceCtorEq, and_false,
        exists_false, false_or, or_false] at h
      rw [Rule.captures, List.filterMap_append]
      rcases h with (h | h) | h
      · exact List.mem_append_right _ (List.mem_append_left _ (address_mem_captures h))
      · exact List.mem_append_right _ (List.mem_append_right _ (address_mem_captures h))
      · exact List.mem_append_left _ (address_mem_targets h)

end Node

theorem hereditary_reached (hkeys : g.KeysApart) : Draft.Hereditary fun n => ∃ p, n.Fits g p ∧ g.Reached p := by
  rintro n ⟨p, hn, hp⟩ before m after hs hfirst
  obtain ⟨q, hm⟩ := hereditary_fits n ⟨p, hn⟩ before m after hs hfirst
  have hkey : m.address ∈ n.rule.keys := Node.address_mem_keys (by simp [hs])
  rw [hn.rule_eq_seen, Rule.keys_renumber, List.mem_map] at hkey
  obtain ⟨q', hq', ha⟩ := hkey
  obtain ⟨site, hsite, _⟩ := hm.site
  have hsome : (g.site? q).isSome := by
    rw [hsite]
    rfl
  -- the place that is referred to is the one that the node fits: they have one address
  obtain rfl : q' = q := hkeys q' q (GrammarSource.site?_of_mem_seenRule hq') hsome (ha.trans hm.address)
  exact ⟨q', hm, hp.tail hq'⟩

/-- The places are those of what is laid out for a grammar. -/
structure GrammarSource.Spans (g : GrammarSource) (scopeName : String) (places : List Place) : Prop where
  top : places.head? = some .top
  once : places.Nodup
  reached : ∀ p, p ∈ places ↔ g.Reached p
  rules : (g.draft scopeName).rules = places.map fun p => (g.seenRule p).renumber places.idxOf

namespace GrammarSource

section

variable {place : Node → Place} (hplace : ∀ n ∈ (g.draft scopeName).nodes, n.Fits g (place n))
include hplace

theorem addresses_place : ((g.draft scopeName).nodes.map place).map Place.address = (g.draft scopeName).addresses := by
  rw [List.map_map]
  exact List.map_congr_left fun n hn => (hplace n hn).address.symm

variable (hkeys : g.KeysApart)
include hkeys

theorem eq_of_place (hn : n ∈ (g.draft scopeName).nodes) (hq : (g.site? q).isSome) (ha : (place n).address = q.address) :
    place n = q := by
  obtain ⟨site, hs, _⟩ := (hplace n hn).site
  refine hkeys _ q ?_ hq ha
  rw [hs]
  rfl

/-- A rule that is referred to has been laid out at its address, so at its place. -/
theorem mem_place (hn : n ∈ (g.draft scopeName).nodes) (hq : q ∈ (g.seenRule (place n)).keys) :
    q ∈ (g.draft scopeName).nodes.map place := by
  have hkey : q.address ∈ n.rule.keys := by
    rw [(hplace n hn).rule_eq_seen, Rule.keys_renumber]
    exact List.mem_map_of_mem hq
  obtain ⟨m, hm, ha⟩ := List.mem_map.mp (keys_of_mem_draft hn hkey)
  rw [(hplace m hm).address] at ha
  exact List.mem_map.mpr ⟨m, hm, eq_of_place hplace hkeys hm (site?_of_mem_seenRule hq) ha⟩

theorem rules_place : (g.draft scopeName).rules = ((g.draft scopeName).nodes.map place).map fun p =>
    (g.seenRule p).renumber ((g.draft scopeName).nodes.map place).idxOf := by
  unfold Draft.rules
  rw [List.map_map]
  refine List.map_congr_left fun n hn => ?_
  rw [(hplace n hn).rule_eq_seen, Rule.renumber_renumber]
  refine Rule.renumber_congr fun q hq => ?_
  rw [Function.comp, ← addresses_place hplace]
  refine idxOf_map fun q' hq' ha => ?_
  obtain ⟨m, hm, rfl⟩ := List.mem_map.mp hq'
  exact eq_of_place hplace hkeys hm (site?_of_mem_seenRule hq) ha

end

theorem exists_spans (hkeys : g.KeysApart) (scopeName : String) : ∃ places, g.Spans scopeName places := by
  obtain ⟨hgrows, _⟩ := grows_draft_of scopeName (hereditary_reached hkeys) ⟨.top, Node.fits_root scopeName, .refl⟩
  have hgood : ∀ n ∈ (g.draft scopeName).nodes, ∃ p, n.Fits g p ∧ g.Reached p := by
    intro n hn
    rcases hgrows.added n hn with hn | hn
    · cases hn
    · exact hn.1
  -- one place for each node that is laid out
  have : Nonempty Place := ⟨.top⟩
  choose! place hplace hreached using hgood
  have htop : ((g.draft scopeName).nodes.map place).head? = some .top := by
    have hroot := hplace _ (List.mem_of_mem_head? (head?_draft (g := g)))
    rw [List.head?_map, head?_draft, Option.map_some, Place.eq_top_of_address hroot.address.symm]
  refine ⟨(g.draft scopeName).nodes.map place, htop, ?_, fun p => ⟨fun hp => ?_, fun hp => ?_⟩, rules_place hplace hkeys⟩
  · refine List.Nodup.of_map Place.address ?_
    rw [addresses_place hplace]
    exact nodup_draft
  · obtain ⟨n, hn, rfl⟩ := List.mem_map.mp hp
    exact hreached n hn
  · induction hp with
    | refl => exact List.mem_of_mem_head? htop
    | tail _ hq ih =>
      obtain ⟨n, hn, rfl⟩ := List.mem_map.mp ih
      exact mem_place hplace hkeys hn hq

end GrammarSource

/-! ## What is read -/

def Draft.ReadsOwn (d : Draft) : Prop :=
  ∀ x ∈ d.reads, ∃ n ∈ d.nodes, x.2 ∈ n.rule.sources

theorem Node.source_of_read {label source : String} (h : .read label source ∈ n.steps) : source ∈ n.rule.sources := by
  have hvisits (nodes : List (Option Node)) : .read label source ∉ visits nodes := by
    intro h
    obtain ⟨k, _, h⟩ := List.mem_filterMap.mp h
    obtain ⟨_, _, h⟩ := Option.map_eq_some_iff.mp h
    cases h
  unfold steps at h
  unfold rule
  cases hb : n.body with
  | group ps =>
    simp only [hb] at h
    exact absurd h (hvisits _)
  | rule s =>
    simp only [hb] at h ⊢
    cases hs : s.shape with
    | group =>
      simp only [hs] at h
      exact absurd h (hvisits _)
    | piece p =>
      simp only [hs] at h ⊢
      rcases List.mem_cons.mp h with h | h
      · cases h
        exact List.mem_singleton_self _
      · exact absurd h (hvisits _)
    | region opening closing lasting =>
      simp only [hs, List.cons_append, List.mem_cons, List.mem_append, List.mem_map] at h ⊢
      rcases h with h | ((h | ⟨_, hc, h⟩) | h) | h
      · cases h
        exact List.mem_cons_self ..
      · exact absurd h (hvisits _)
      · cases h
        exact List.mem_cons_of_mem _ hc
      · exact absurd h (hvisits _)
      · exact absurd h (hvisits _)

namespace Draft

variable {d : Draft}

theorem ReadsOwn.add (hd : d.ReadsOwn) (n : Node) : (d.add n).ReadsOwn := by
  intro x hx
  obtain ⟨k, hk, hsource⟩ := hd x hx
  exact ⟨k, List.mem_append_left _ hk, hsource⟩

theorem ReadsOwn.addRead (hd : d.ReadsOwn) (hn : n ∈ d.nodes) {label source : String} (hs : source ∈ n.rule.sources) :
    (d.addRead label source).ReadsOwn := by
  intro x hx
  rcases List.mem_append.mp hx with hx | hx
  · exact hd x hx
  · rw [List.mem_singleton.mp hx]
    exact ⟨n, hn, hs⟩

theorem readsOwn_foldl (ih : ∀ m, .visit m ∈ n.steps → ∀ d : Draft, d.ReadsOwn →
    (d.layOut m).ReadsOwn ∧ d.nodes ⊆ (d.layOut m).nodes) : ∀ (steps : List Step) (d : Draft), steps ⊆ n.steps →
      n ∈ d.nodes → d.ReadsOwn → (steps.foldl follow d).ReadsOwn ∧ d.nodes ⊆ (steps.foldl follow d).nodes
  | [], d, _, _, hd => ⟨hd, List.Subset.refl _⟩
  | st :: steps, d, hs, hn, hd => by
    have hst : st ∈ n.steps := hs (List.mem_cons_self ..)
    have hstep : (d.follow st).ReadsOwn ∧ d.nodes ⊆ (d.follow st).nodes := by
      cases st with
      | read label source => exact ⟨hd.addRead hn (Node.source_of_read hst), List.Subset.refl _⟩
      | visit m => exact ih m hst d hd
    obtain ⟨h1, h2⟩ := readsOwn_foldl ih steps (d.follow st) (List.subset_of_cons_subset hs) (hstep.2 hn) hstep.1
    exact ⟨h1, List.Subset.trans hstep.2 h2⟩

theorem readsOwn_layOut (n : Node) (d : Draft) (hd : d.ReadsOwn) :
    (d.layOut n).ReadsOwn ∧ d.nodes ⊆ (d.layOut n).nodes := by
  rw [layOut_eq]
  by_cases hmem : n.address ∈ d.addresses
  · rw [if_pos hmem]
    exact ⟨hd, List.Subset.refl _⟩
  · rw [if_neg hmem]
    -- the rule is there before its patterns are to be read, and stays there
    have hn : n ∈ (d.add n).nodes := List.mem_append_right _ (List.mem_singleton_self n)
    obtain ⟨h1, h2⟩ := readsOwn_foldl (fun m hm d hd => readsOwn_layOut m d hd) n.steps (d.add n)
      (List.Subset.refl _) hn (hd.add n)
    exact ⟨h1, List.Subset.trans (List.subset_append_left ..) h2⟩
termination_by n.weight
decreasing_by exact Node.weight_lt_of_visit hm

end Draft

def Readable (engine : Engine) (source : String) : Prop :=
  ∃ p, engine.read source = .ok p

theorem readPattern_iff {label source : String} : (∃ p, readPattern engine label source = .ok p) ↔ Readable engine source := by
  unfold readPattern Readable
  simp only [Results.mapError_eq_ok]

namespace GrammarSource

theorem source_of_mem_reads {x : String × String} (hx : x ∈ (g.draft scopeName).reads) :
    ∃ r ∈ (g.draft scopeName).rules, x.2 ∈ r.sources := by
  obtain ⟨n, hn, hs⟩ := (Draft.readsOwn_layOut (rootNode g scopeName) .empty fun _ h => by cases h).1 x hx
  exact ⟨_, List.mem_map_of_mem hn, by rwa [Rule.sources_renumber]⟩

end GrammarSource

/-- A grammar is compiled if it has a scope and the patterns of its rules can be read. -/
theorem exists_compile (hname : g.scopeName = some scopeName)
    (h : ∀ r ∈ (g.draft scopeName).rules, ∀ source ∈ r.sources, Readable engine source) : ∃ G, compile engine g = .ok G := by
  have hreads : ((g.draft scopeName).reads.forM fun x => discard (readPattern engine x.1 x.2)) = .ok ⟨⟩ := by
    refine Results.forM_eq_ok fun x hx => ?_
    obtain ⟨r, hr, hs⟩ := GrammarSource.source_of_mem_reads hx
    obtain ⟨p, hp⟩ := readPattern_iff.mpr (h r hr _ hs)
    rw [hp]
    rfl
  have hrules : ∃ rules, (g.draft scopeName).rules.mapM (Rule.read (readPattern engine scopeName)) = .ok rules :=
    Results.exists_mapM fun r hr => Rule.exists_read_iff.mpr fun source hs => readPattern_iff.mpr (h r hr source hs)
  obtain ⟨rules, hrules⟩ := hrules
  refine ⟨{ name := g.name, scopeName, rules := rules.toArray }, ?_⟩
  unfold compile
  rw [hname]
  show ((g.draft scopeName).reads.forM (fun x => discard (readPattern engine x.1 x.2)) >>= fun _ =>
    (g.draft scopeName).rules.mapM (Rule.read (readPattern engine scopeName)) >>= fun rules => _) = _
  rw [hreads, hrules]
  rfl

theorem Node.capturesSorted_rule (n : Node) : n.rule.CapturesSorted := by
  unfold rule
  split
  · trivial
  · split
    · trivial
    · exact pairwise_mergeSort _
    · exact ⟨pairwise_mergeSort _, pairwise_mergeSort _⟩

theorem capturesSorted_of_compile {G : Grammar} (h : compile engine g = .ok G) {i : Nat} {r : Rule Nat Pattern}
    (hr : G.rules[i]? = some r) : r.CapturesSorted := by
  obtain ⟨n, _, hread⟩ := exists_node_of_getElem? h hr
  exact (n.capturesSorted_rule.renumber _).of_read hread

/-! ## From one order to another -/

section

variable {α : Type} [DecidableEq α] {l m : List α}

def moved (l m : List α) (i : Nat) : Nat :=
  (l[i]?.map m.idxOf).getD i

theorem moved_of_lt {i : Nat} (hi : i < l.length) : moved l m i = m.idxOf l[i] := by
  unfold moved
  rw [List.getElem?_eq_getElem hi]
  rfl

theorem moved_of_le {i : Nat} (hi : l.length ≤ i) : moved l m i = i := by
  unfold moved
  rw [List.getElem?_eq_none hi]
  rfl

theorem moved_idxOf {x : α} (hx : x ∈ l) : moved l m (l.idxOf x) = m.idxOf x := by
  rw [moved_of_lt (List.idxOf_lt_length_of_mem hx), List.getElem_idxOf]

theorem moved_zero {x : α} (hl : l.head? = some x) (hm : m.head? = some x) : moved l m 0 = 0 := by
  have hzero {n : List α} (hn : n.head? = some x) : n.idxOf x = 0 := by
    obtain ⟨rest, rfl⟩ := List.head?_eq_some_iff.mp hn
    exact List.idxOf_cons_self
  have hmoved := moved_idxOf (m := m) (List.mem_of_mem_head? hl)
  rwa [hzero hl, hzero hm] at hmoved

theorem moved_moved (hl : l.Nodup) (h : l.Perm m) (i : Nat) : moved m l (moved l m i) = i := by
  by_cases hi : i < l.length
  · rw [moved_of_lt hi, moved_idxOf (h.mem_iff.mp (List.getElem_mem hi)), hl.idxOf_getElem]
  · rw [moved_of_le (Nat.not_lt.mp hi), moved_of_le (h.length_eq ▸ Nat.not_lt.mp hi)]

def renumbering (hl : l.Nodup) (h : l.Perm m) : Equiv.Perm Nat where
  toFun := moved l m
  invFun := moved m l
  left_inv := moved_moved hl h
  right_inv := moved_moved (h.nodup hl) h.symm

end

namespace GrammarSource.Spans

variable {g' : GrammarSource} {G G' : Grammar} {places places' : List Place}

theorem compiled (hs : g.Spans G.scopeName places) (h : compile engine g = .ok G) :
    List.Forall₂ (fun p r => ((g.seenRule p).renumber places.idxOf).read (readPattern engine G.scopeName) = .ok r)
      places G.rules.toList := by
  have hrules : List.Forall₂ (fun r r' => Rule.read (readPattern engine G.scopeName) r = .ok r')
      (g.draft G.scopeName).rules G.rules.toList := List.forall₂_map_left_iff.mpr (compile_eq_ok h).2
  rw [hs.rules] at hrules
  exact List.forall₂_map_left_iff.mp hrules

theorem closed (hs : g.Spans scopeName places) (hp : p ∈ places) (hq : q ∈ (g.seenRule p).keys) : q ∈ places :=
  (hs.reached q).mpr (((hs.reached p).mp hp).tail hq)

theorem rule_of_compile (hs : g.Spans G.scopeName places) (h : compile engine g = .ok G) {i : Nat} (hi : i < places.length) :
    ∃ r, G.rules[i]? = some r ∧
      ((g.seenRule places[i]).renumber places.idxOf).read (readPattern engine G.scopeName) = .ok r := by
  have hcompiled := hs.compiled h
  have hj : i < G.rules.toList.length := hcompiled.length_eq ▸ hi
  have hread := hcompiled.get hi hj
  simp only [List.get_eq_getElem] at hread
  exact ⟨_, by rw [← Array.getElem?_toList, List.getElem?_eq_getElem hj], hread⟩

theorem size_rules (hs : g.Spans G.scopeName places) (h : compile engine g = .ok G) : G.rules.size = places.length := by
  rw [(hs.compiled h).length_eq, Array.length_toList]

/-- Two grammars with the same rules at the same places are compiled to one another's rules. -/
theorem renumbers (hs : g.Spans G.scopeName places) (h : compile engine g = .ok G) (hs' : g'.Spans G'.scopeName places')
    (h' : compile engine g' = .ok G') (hname : g'.name = g.name) (hscope : g'.scopeName = g.scopeName)
    (hperm : places.Perm places') (hsame : ∀ p ∈ places, g'.seenRule p = g.seenRule p) :
    Renumbers (renumbering hs.once hperm) G G' := by
  have hscopeName : G'.scopeName = G.scopeName := by
    rw [(compile_eq_ok h).1, (compile_eq_ok h').1] at hscope
    exact Option.some.inj hscope
  refine .of_rules ?_ hscopeName ?_ ?_ fun i => ?_
  · rw [name_of_compile h, name_of_compile h', hname]
  · rw [hs.size_rules h, hs'.size_rules h', hperm.length_eq]
  · exact moved_zero hs.top hs'.top
  · show G'.rules[moved places places' i]? = _
    by_cases hi : i < places.length
    · have hmem : places[i] ∈ places := List.getElem_mem hi
      have hj := List.idxOf_lt_length_of_mem (hperm.mem_iff.mp hmem)
      obtain ⟨r, hr, hread⟩ := hs.rule_of_compile h hi
      obtain ⟨r', hr', hread'⟩ := hs'.rule_of_compile h' hj
      rw [List.getElem_idxOf, hsame _ hmem, hscopeName] at hread'
      rw [moved_of_lt hi, hr, hr']
      -- the keys of the rule are places, which have been moved
      have hkeys : ((g.seenRule places[i]).renumber places.idxOf).renumber (renumbering hs.once hperm) =
          (g.seenRule places[i]).renumber places'.idxOf := by
        rw [Rule.renumber_renumber]
        exact Rule.renumber_congr fun q hq => moved_idxOf (hs.closed hmem hq)
      rw [← hkeys, Rule.read_renumber, hread] at hread'
      cases hread'
      rfl
    · have hle := Nat.not_lt.mp hi
      rw [moved_of_le hle, Array.getElem?_eq_none (by rw [hs'.size_rules h', ← hperm.length_eq]; exact hle),
        Array.getElem?_eq_none (by rw [hs.size_rules h]; exact hle)]
      rfl

end GrammarSource.Spans

theorem readable_of_compile {G : Grammar} (h : compile engine g = .ok G) : ∀ r ∈ (g.draft G.scopeName).rules,
    ∀ source ∈ r.sources, Readable engine source := by
  intro r hr source hsource
  obtain ⟨n, hn, rfl⟩ := List.mem_map.mp hr
  obtain ⟨i, hi⟩ := List.mem_iff_getElem?.mp hn
  obtain ⟨r', _, hread⟩ := getElem?_rules h hi
  exact readPattern_iff.mp (Rule.exists_read_iff.mp ⟨r', hread⟩ source hsource)

/-- Where one grammar is compiled, so is another that reaches the same rules. -/
theorem exists_compile_of_spans {g' : GrammarSource} {G : Grammar} {places places' : List Place} (h : compile engine g = .ok G)
    (hs : g.Spans G.scopeName places) (hs' : g'.Spans G.scopeName places') (hscope : g'.scopeName = g.scopeName)
    (hsame : ∀ p ∈ places', p ∈ places ∧ g'.seenRule p = g.seenRule p) : ∃ G', compile engine g' = .ok G' := by
  refine exists_compile (hscope.trans (compile_eq_ok h).1) fun r hr source hsource => ?_
  rw [hs'.rules] at hr
  obtain ⟨p, hp, rfl⟩ := List.mem_map.mp hr
  obtain ⟨hmem, hrule⟩ := hsame p hp
  rw [Rule.sources_renumber, hrule, ← Rule.sources_renumber places.idxOf] at hsource
  refine readable_of_compile h _ ?_ source hsource
  rw [hs.rules]
  exact List.mem_map_of_mem hmem

/-- Captures in another order are laid out at the same places, with the same rules. -/
theorem exists_spans_reordered {g' : GrammarSource} (hr : g.Reordered g') (hg : g.Distinct) (scopeName : String) :
    ∃ places places', g.Spans scopeName places ∧ g'.Spans scopeName places' ∧ places.Perm places' ∧
      ∀ p ∈ places, g'.seenRule p = g.seenRule p := by
  obtain ⟨places, hs⟩ := GrammarSource.exists_spans hg.keysApart scopeName
  obtain ⟨places', hs'⟩ := GrammarSource.exists_spans (hg.reordered hr).keysApart scopeName
  refine ⟨places, places', hs, hs', (List.perm_ext_iff_of_nodup hs.once hs'.once).mpr fun p => ?_, fun p hp => ?_⟩
  · rw [hs.reached, hs'.reached, hr.reached_iff hg]
  · exact hr.seenRule hg ((hs.reached p).mp hp).numeric

/-- The order in which captures are taken is not told by what is compiled, but for the numbers
of rules, nor by what is highlighted. -/
theorem compile_reordered (engine : Engine) (g g' : GrammarSource) (hr : g.Reordered g') (hg : g.Distinct) :
    (∃ e e', compile engine g = .error e ∧ compile engine g' = .error e') ∨
    ∃ G G' f, compile engine g = .ok G ∧ compile engine g' = .ok G' ∧ Renumbers f G G' ∧
      (∀ (i : Nat) (r : Rule Nat Pattern), G.rules[i]? = some r → r.CapturesSorted) ∧
      ∀ text explain, Highlighter.tokenize ⟨G', engine⟩ text explain = Highlighter.tokenize ⟨G, engine⟩ text explain := by
  cases h : compile engine g with
  | error e =>
    cases h' : compile engine g' with
    | error e' => exact .inl ⟨e, e', rfl, rfl⟩
    | ok G' =>
      obtain ⟨places, places', hs, hs', hperm, hsame⟩ := exists_spans_reordered hr hg G'.scopeName
      obtain ⟨G, hG⟩ := exists_compile_of_spans h' hs' hs hr.scopeName.symm fun p hp =>
        ⟨hperm.mem_iff.mp hp, (hsame p hp).symm⟩
      rw [h] at hG
      cases hG
  | ok G =>
    obtain ⟨places, places', hs, hs', hperm, hsame⟩ := exists_spans_reordered hr hg G.scopeName
    obtain ⟨G', h'⟩ := exists_compile_of_spans h hs hs' hr.scopeName fun p hp =>
      ⟨hperm.mem_iff.mpr hp, hsame p (hperm.mem_iff.mpr hp)⟩
    have hscopeName : G.scopeName = G'.scopeName := by
      have hscope := hr.scopeName
      rw [(compile_eq_ok h).1, (compile_eq_ok h').1] at hscope
      exact (Option.some.inj hscope).symm
    have hrenumbers := hs.renumbers h (hscopeName ▸ hs') h' hr.name hr.scopeName hperm hsame
    exact .inr ⟨G, G', _, rfl, h', hrenumbers, fun i r => capturesSorted_of_compile h,
      fun text explain => tokenize_renumber hrenumbers engine text explain⟩

namespace Swapped

open Shadows (piece letter)

def capture (pattern name : String) : RuleSource :=
  { RuleSource.empty with patterns := [piece pattern name] }

def word (captures : Entries) : RuleSource :=
  { RuleSource.empty with pattern := some "w", captures }

def source (captures : Entries) : GrammarSource where
  name := none
  scopeName := some "s"
  patterns := [word captures]
  repository := []

def first : String × RuleSource :=
  ("1", capture "a" "first")

def second : String × RuleSource :=
  ("2", capture "b" "second")

theorem reordered_capture (pattern name : String) : (capture pattern name).Reordered (capture pattern name) := by
  have hpiece : (piece pattern name).Reordered (piece pattern name) :=
    .mk rfl rfl rfl rfl rfl rfl rfl .nil .nil .nil .nil .nil .nil rfl rfl
  exact .mk rfl rfl rfl rfl rfl rfl rfl .nil .nil .nil .nil (.cons hpiece .nil) .nil rfl rfl

theorem reordered_source : (source [first, second]).Reordered (source [second, first]) where
  name := rfl
  scopeName := rfl
  patterns := by
    have hcaptures : Shuffled (SameName RuleSource.Reordered) [first, second] [second, first] := by
      have hrest : Shuffled (SameName RuleSource.Reordered) [second] [second] :=
        @Shuffled.insert _ _ second second [] [] [] (.mk (reordered_capture ..)) .nil
      exact @Shuffled.insert _ _ first first [second] [second] [] (.mk (reordered_capture ..)) hrest
    exact .cons (.mk rfl rfl rfl rfl rfl rfl rfl hcaptures .nil .nil .nil .nil .nil rfl rfl) .nil
  repository := .nil

theorem everywhere_capture (pattern name : String) : (capture pattern name).Everywhere RuleSource.Distinct := by
  have hnone (s : RuleSource) (hs : ∀ use, s.capturesFor use = []) (hr : s.repository = []) : s.Distinct :=
    ⟨by simp [hr], fun use => by simp [hs, GroupsApart]⟩
  have hpiece : (piece pattern name).Everywhere RuleSource.Distinct :=
    .mk (hnone _ (fun use => by cases use <;> rfl) rfl) (List.forall_mem_nil _) (List.forall_mem_nil _)
      fun use => by cases use <;> exact List.forall_mem_nil _
  exact .mk (hnone _ (fun use => by cases use <;> rfl) rfl) (List.forall_mem_singleton.mpr hpiece) (List.forall_mem_nil _)
    fun use => by cases use <;> exact List.forall_mem_nil _

theorem distinct_source : (source [first, second]).Distinct where
  names := List.forall_mem_nil _
  patterns := by
    have hcaptures (use : CaptureUse) : (word [first, second]).capturesFor use = [first, second] := by
      cases use <;> rfl
    have hgroups : GroupsApart [first, second] := by
      refine List.pairwise_pair.mpr fun k hk => ?_
      rw [← hk]
      decide
    have hword : (word [first, second]).Everywhere RuleSource.Distinct := by
      refine .mk ⟨List.forall_mem_nil _, fun use => ?_⟩ (List.forall_mem_nil _) (List.forall_mem_nil _) fun use => ?_
      · rw [hcaptures]
        exact hgroups
      · rw [hcaptures]
        simp [first, second, everywhere_capture]
    exact List.forall_mem_singleton.mpr hword
  repository := List.forall_mem_nil _

def grammar : Grammar where
  name := none
  scopeName := "s"
  rules := #[.container [1], .piece none (letter 'w') [⟨1, none, some 2⟩, ⟨2, none, some 4⟩],
    .container [3], .piece (some "first") (letter 'a') [], .container [5], .piece (some "second") (letter 'b') []]
  candidates := #[[1], [], [3], [], [5], []]
  candidates_eq := by cbv

def swapped : Grammar where
  name := none
  scopeName := "s"
  rules := #[.container [1], .piece none (letter 'w') [⟨1, none, some 4⟩, ⟨2, none, some 2⟩],
    .container [3], .piece (some "second") (letter 'b') [], .container [5], .piece (some "first") (letter 'a') []]
  candidates := #[[1], [], [3], [], [5], []]
  candidates_eq := by cbv

theorem compile_grammar : compile .backtracking (source [first, second]) = .ok grammar := by cbv

theorem compile_swapped : compile .backtracking (source [second, first]) = .ok swapped := by cbv

end Swapped

theorem compile_reordered_swapped :
    compile .backtracking (Swapped.source [Swapped.first, Swapped.second]) = .ok Swapped.grammar ∧
      compile .backtracking (Swapped.source [Swapped.second, Swapped.first]) = .ok Swapped.swapped ∧
      Swapped.grammar ≠ Swapped.swapped ∧ (∃ f, Renumbers f Swapped.grammar Swapped.swapped) ∧
      ∀ text explain, Highlighter.tokenize ⟨Swapped.swapped, .backtracking⟩ text explain =
        Highlighter.tokenize ⟨Swapped.grammar, .backtracking⟩ text explain := by
  refine ⟨Swapped.compile_grammar, Swapped.compile_swapped, fun heq => ?_, ?_⟩
  · have hkeys : Swapped.grammar.rules[1]?.map (·.captures) = Swapped.swapped.rules[1]?.map (·.captures) := by rw [heq]
    exact absurd hkeys (by decide)
  · rcases compile_reordered .backtracking _ _ Swapped.reordered_source Swapped.distinct_source with
      ⟨e, _, he, _⟩ | ⟨G, G', f, h, h', hf, _, htokens⟩
    · rw [Swapped.compile_grammar] at he
      cases he
    · obtain rfl := Except.ok.inj (h.symm.trans Swapped.compile_grammar)
      obtain rfl := Except.ok.inj (h'.symm.trans Swapped.compile_swapped)
      exact ⟨⟨f, hf⟩, htokens⟩

end Grammar

end Highlight
