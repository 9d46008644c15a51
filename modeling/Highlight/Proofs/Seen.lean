import Highlight.Proofs.Sight

/-!
# Rules as they are seen

What a rule refers to while a grammar is laid out depends on the repositories in its sight, and
these on its place alone. So the rule that a node makes can be told from its place.
-/

namespace Highlight.Grammar

variable {g : GrammarSource} {p q : Place} {n : Node}

def meantIn (chain : List (Place × Entries)) (p : Place) (index : Nat) (s : RuleSource) : Option Place :=
  if s.disabled then none
  else match s.reference with
    | some reference =>
      if reference = "$self" ∨ reference = "$base" then some .top
      else match reference.toList with
        | '#' :: name => findIn (String.ofList name) chain
        | _ => none
    | none => some (.inner p (.pattern index))

theorem meantIn_congr {chain chain' : List (Place × Entries)} (h : ∀ name, findIn name chain = findIn name chain')
    (index : Nat) (s : RuleSource) : meantIn chain p index s = meantIn chain' p index s := by
  unfold meantIn
  simp only [h]

namespace GrammarSource

variable (g : GrammarSource)

def seen (p : Place) (ps : List RuleSource) : List Place :=
  ps.zipIdx.filterMap fun (s, index) => meantIn (g.inSight p) p index s

def seenAt (p : Place) (b : Body) : Rule Place String :=
  b.toRule (g.seen p) p.captures

/-- The rule at a place while the grammar is laid out, or none in it where nothing is there. -/
def seenRule (p : Place) : Rule Place String :=
  match g.site? p with
  | some site => g.seenAt p site.body
  | none => .container []

variable {g}

theorem seenRule_eq {site : Site} (hs : g.site? p = some site) : g.seenRule p = g.seenAt p site.body := by
  unfold seenRule
  rw [hs]

end GrammarSource

/-! ## What a rule refers to -/

theorem of_findIn {name : String} : ∀ {chain : List (Place × Entries)}, findIn name chain = some q →
    ∃ owner entries, (owner, entries) ∈ chain ∧ (entries.lookup name).isSome ∧ q = .named owner name
  | (owner, entries) :: chain, h => by
    rw [findIn] at h
    by_cases hsome : (entries.lookup name).isSome = true
    · rw [if_pos hsome] at h
      cases h
      exact ⟨owner, entries, List.mem_cons_self .., hsome, rfl⟩
    · rw [if_neg hsome] at h
      obtain ⟨owner, entries, hmem, hfound⟩ := of_findIn h
      exact ⟨owner, entries, List.mem_cons_of_mem _ hmem, hfound⟩

/-- What a pattern means is the whole, a rule that has a name, or the rule that stands there. -/
theorem of_meantIn {chain : List (Place × Entries)} {index : Nat} {s : RuleSource} (h : meantIn chain p index s = some q) :
    q = .top ∨ (∃ owner entries name, (owner, entries) ∈ chain ∧ (entries.lookup name).isSome ∧ q = .named owner name) ∨
      s.disabled = false ∧ s.reference = none ∧ q = .inner p (.pattern index) := by
  unfold meantIn at h
  split at h
  · cases h
  · rename_i hdisabled
    split at h
    · split at h
      · cases h
        exact .inl rfl
      · split at h
        · obtain ⟨owner, entries, hmem, hsome, rfl⟩ := of_findIn h
          exact .inr (.inl ⟨owner, entries, _, hmem, hsome, rfl⟩)
        · cases h
    · rename_i href
      cases h
      exact .inr (.inr ⟨by simpa using hdisabled, href, rfl⟩)

theorem Place.of_mem_captures {s : RuleSource} {use : CaptureUse} {c : Capture Place} (hc : c ∈ p.captures s use)
    (hq : c.patterns = some q) : ∃ key source, (key, source) ∈ s.capturesFor use ∧ (Text.number? key.toList).isSome ∧
      source.patterns.isEmpty = false ∧ q = .inner p (.capture use key) := by
  obtain ⟨⟨key, source⟩, hmem, hc⟩ := List.mem_filterMap.mp (List.mem_mergeSort.mp hc)
  obtain ⟨group, hgroup, rfl⟩ := Option.map_eq_some_iff.mp hc
  simp only at hq
  split at hq
  · cases hq
  · rename_i hpatterns
    cases hq
    exact ⟨key, source, hmem, by rw [hgroup]; rfl, by simpa using hpatterns, rfl⟩

/-- A rule refers to what its patterns mean, and to those of its captures that have patterns. -/
theorem Body.of_mem_keys_toRule {targets : List RuleSource → List Place} {b : Body}
    (h : q ∈ (b.toRule targets p.captures).keys) :
    q ∈ targets b.patterns ∨ ∃ s use key source, b = .rule s ∧ (key, source) ∈ s.capturesFor use ∧
      (Text.number? key.toList).isSome ∧ source.patterns.isEmpty = false ∧ q = .inner p (.capture use key) := by
  cases b with
  | group ps =>
    rcases List.mem_append.mp h with h | h
    · exact .inl h
    · cases h
  | rule s =>
    have hcaptures (use : CaptureUse) (hq : q ∈ (p.captures s use).filterMap (·.patterns)) :
        ∃ s' use key source, Body.rule s = .rule s' ∧ (key, source) ∈ s'.capturesFor use ∧
          (Text.number? key.toList).isSome ∧ source.patterns.isEmpty = false ∧ q = .inner p (.capture use key) := by
      obtain ⟨c, hc, hq⟩ := List.mem_filterMap.mp hq
      obtain ⟨key, source, hfound⟩ := Place.of_mem_captures hc hq
      exact ⟨s, use, key, source, rfl, hfound⟩
    unfold toRule at h
    simp only at h
    split at h
    · rcases List.mem_append.mp h with h | h
      · exact .inl h
      · cases h
    · rcases List.mem_append.mp h with h | h
      · cases h
      · exact .inr (hcaptures _ h)
    · rcases List.mem_append.mp h with h | h
      · exact .inl h
      · rw [Rule.captures, List.filterMap_append] at h
        rcases List.mem_append.mp h with h | h
        · exact .inr (hcaptures _ h)
        · exact .inr (hcaptures _ h)

namespace GrammarSource

theorem site?_named {owner : Place} {entries : Entries} {name : String} (hmem : (owner, entries) ∈ g.repositories p)
    (hsome : (entries.lookup name).isSome) : (g.site? (.named owner name)).isSome := by
  obtain ⟨before, after, hsplit⟩ := List.append_of_mem hmem
  obtain ⟨_, site, hsite, rfl⟩ := repositories_suffix hsplit
  show ((g.site? owner).bind (·.named? name)).isSome
  rw [hsite, Option.bind_some, Site.named?, Option.isSome_map]
  exact hsome

/-- What a rule refers to is there, if its patterns mean rules in repositories around it. -/
theorem site?_of_mem_keys_toRule {chain : List (Place × Entries)} (hchain : chain ⊆ g.repositories p) {site : Site}
    (hs : g.site? p = some site)
    (hq : q ∈ (site.body.toRule (fun ps => ps.zipIdx.filterMap fun (s, index) => meantIn chain p index s) p.captures).keys) :
    (g.site? q).isSome := by
  rcases Body.of_mem_keys_toRule hq with hq | ⟨s, use, key, source, hb, hmem, _, hpatterns, rfl⟩
  · obtain ⟨⟨s, index⟩, hmem, hq⟩ := List.mem_filterMap.mp hq
    rcases of_meantIn hq with rfl | ⟨owner, entries, name, hmem, hsome, rfl⟩ | ⟨hdisabled, href, rfl⟩
    · rfl
    · exact site?_named (hchain hmem) hsome
    · have hget : site.body.patterns[index]? = some s := by simpa using List.mem_zipIdx_iff_getElem?.mp hmem
      show ((g.site? p).bind (·.pattern? index)).isSome
      rw [hs, Option.bind_some, Site.pattern?, hget]
      simp [href, hdisabled]
  · show ((g.site? p).bind (·.capture? use key)).isSome
    rw [hs, Option.bind_some, Site.capture?, hb]
    simp only
    rw [Option.isSome_map, List.find?_isSome]
    exact ⟨_, hmem, by simpa using hpatterns⟩

theorem inSight_subset (p : Place) : g.inSight p ⊆ g.repositories p :=
  List.filter_sublist.subset

theorem site?_of_mem_seenRule (hq : q ∈ (g.seenRule p).keys) : (g.site? q).isSome := by
  cases hs : g.site? p with
  | none =>
    rw [seenRule, hs] at hq
    cases hq
  | some site =>
    rw [seenRule_eq hs] at hq
    exact site?_of_mem_keys_toRule (inSight_subset p) hs hq

end GrammarSource

/-! ## The rules of nodes are those seen at their places -/

namespace Node.Fits

theorem address_meantIn (hn : n.Fits g p) (index : Nat) (s : RuleSource) :
    (target? n.address n.inside n.innerLabel index s).map (·.address) =
      (meantIn (g.inSight p) p index s).map Place.address := by
  unfold target? meantIn
  by_cases hd : s.disabled = true
  · rw [if_pos hd, if_pos hd]
    rfl
  · rw [if_neg hd, if_neg hd]
    cases s.reference with
    | none =>
      show some (Address.inner n.address _) = some (Address.inner p.address _)
      rw [hn.address]
    | some reference =>
      by_cases hself : reference = "$self" ∨ reference = "$base"
      · simp only [referred?, if_pos hself]
        rfl
      · simp only [referred?, if_neg hself]
        cases reference.toList with
        | nil => rfl
        | cons c name =>
          by_cases hc : c = '#'
          · subst hc
            exact hn.sight.address_resolve _
          · simp [hc]

theorem targets_eq_seen (hn : n.Fits g p) (ps : List RuleSource) :
    (n.targets ps).map (·.address) = (g.seen p ps).map Place.address := by
  unfold targets Grammar.targets GrammarSource.seen
  rw [List.map_filterMap, List.map_filterMap]
  congr 1
  funext x
  exact hn.address_meantIn x.2 x.1

theorem captures_eq (hn : n.Fits g p) (s : RuleSource) (use : CaptureUse) :
    n.captures s use = (p.captures s use).map (·.renumber Place.address) := by
  have hsort (cs : List (Capture Place)) :
      (cs.mergeSort fun a b => a.group ≤ b.group).map (·.renumber Place.address) =
        (cs.map (·.renumber Place.address)).mergeSort fun a b => a.group ≤ b.group :=
    List.map_mergeSort fun a _ b _ => rfl
  unfold captures Place.captures captureTargets
  rw [hsort, List.map_filterMap, List.map_filterMap]
  congr 2
  funext x
  unfold captureTarget? Place.capture?
  rw [Option.map_map, Option.map_map]
  congr 1
  funext group
  simp only [Function.comp]
  split
  · rfl
  · show Capture.mk _ _ (some (Address.inner n.address _)) = Capture.mk _ _ (some (Address.inner p.address _))
    rw [hn.address]

theorem rule_eq_seen (hn : n.Fits g p) : n.rule = (g.seenRule p).renumber Place.address := by
  obtain ⟨site, hs, hb⟩ := hn.site
  rw [GrammarSource.seenRule_eq hs, hb, Node.rule_eq, GrammarSource.seenAt, Body.renumber_toRule]
  congr 1
  · funext ps
    exact hn.targets_eq_seen ps
  · funext s use
    exact hn.captures_eq s use

end Node.Fits

end Highlight.Grammar
