import Highlight.Proofs.Places

/-!
# Laying out a grammar

A rule leads on to others, each of which is laid out unless something has its address. In the
end all that a rule refers to is laid out: what is missing in its sight is so because it is
being laid out already. A property that holds of the root, and of what a rule leads on to if
it holds of the rule, holds of all that is laid out.
-/

namespace Highlight.Grammar

/-! ## What a rule leads on to -/

namespace Repository

theorem lookup_ofEntries (entries : Entries) (name : String) :
    (entries.map fun e => (e.1, some e.2)).lookup name = (entries.lookup name).map some := by
  induction entries with
  | nil => rfl
  | cons e es ih =>
    rw [List.map_cons, List.lookup_cons, List.lookup_cons]
    split
    · rfl
    · exact ih

theorem lookup_without (r : Repository) (name x : String) :
    (r.without name).entries.lookup x =
      if x = name then (r.entries.lookup x).map fun _ => none else r.entries.lookup x := by
  obtain ⟨owner, path, entries⟩ := r
  simp only [without]
  induction entries with
  | nil => simp
  | cons e es ih =>
    obtain ⟨y, s⟩ := e
    by_cases hy : y = name
    · by_cases hx : x = y
      · simp [hx, hy]
      · have hne : (x == y) = false := by simpa using hx
        simp only [List.map_cons, if_pos hy, List.lookup_cons, hne]
        exact ih
    · by_cases hx : x = y
      · simp [hx, hy]
      · have hne : (x == y) = false := by simpa using hx
        simp only [List.map_cons, if_neg hy, List.lookup_cons, hne]
        exact ih

theorem lookup_of (address : Address) (entries : Entries) (name : String) :
    (Repository.of address entries).entries.lookup name = (entries.lookup name).map some := by
  unfold Repository.of
  split
  · exact lookup_ofEntries entries name
  · exact lookup_ofEntries entries name

theorem addressOf_of (address : Address) (entries entries' : Entries) (name : String) :
    (Repository.of address entries).addressOf name = (Repository.of address entries').addressOf name := by
  cases address <;> rfl

end Repository

/-- What a name means, and the repositories around the rule that it means. -/
theorem resolve_eq_some {name : String} {sight : List Repository} {t : Target} (h : resolve name sight = some t) :
    ∃ inner r outer source?, sight = inner ++ r :: outer ∧ r.entries.lookup name = some source? ∧
      t.address = r.addressOf name ∧ (∀ r' ∈ inner, r'.entries.lookup name = none) ∧
      t.node = source?.map fun source => ⟨r.addressOf name, r.without name :: outer, name, (Site.ofEntry source).body⟩ := by
  induction sight with
  | nil => cases h
  | cons r outer ih =>
    rw [resolve] at h
    cases hr : r.entries.lookup name with
    | none =>
      rw [hr] at h
      obtain ⟨inner, r', outer', source?, rfl, h1, h2, h3, h4⟩ := ih h
      refine ⟨r :: inner, r', outer', source?, rfl, h1, h2, ?_, h4⟩
      intro r'' hmem
      rcases List.mem_cons.mp hmem with rfl | hmem
      · exact hr
      · exact h3 r'' hmem
    | some source? =>
      rw [hr] at h
      cases h
      refine ⟨[], r, outer, source?, rfl, hr, rfl, List.forall_mem_nil _, ?_⟩
      cases source? with
      | none => rfl
      | some source =>
        unfold Site.ofEntry
        by_cases hs : source.reference.isSome = true
        · simp [hs]
        · simp [hs]

def Known (sight : List Repository) (a : Address) : Prop :=
  a = .root ∨ ∃ r ∈ sight, ∃ name, r.entries.lookup name = some none ∧ a = r.addressOf name

theorem node_of_target? {owner : Address} {sight : List Repository} {label : String} {index : Nat} {s : RuleSource}
    {t : Target} (h : target? owner sight label index s = some t) :
    (∃ m, t.node = some m ∧ m.address = t.address) ∨ t.node = none ∧ Known sight t.address := by
  unfold target? at h
  split at h
  · cases h
  · split at h
    · unfold referred? at h
      split at h
      · cases h
        exact .inr ⟨rfl, .inl rfl⟩
      · split at h
        · obtain ⟨inner, r, outer, source?, rfl, hr, ha, _, hn⟩ := resolve_eq_some h
          cases source? with
          | none => exact .inr ⟨hn, .inr ⟨r, by simp, _, hr, ha⟩⟩
          | some source => exact .inl ⟨_, hn, ha.symm⟩
        · cases h
    · cases h
      exact .inl ⟨_, rfl, rfl⟩

namespace Node

variable {n m : Node} {s : RuleSource} {use : CaptureUse} {ps : List RuleSource}

theorem known_inside {a : Address} (h : Known n.inside a) : Known n.sight a := by
  rcases h with h | ⟨r, hr, name, hname, ha⟩
  · exact .inl h
  · refine .inr ⟨r, ?_, name, hname, ha⟩
    unfold inside at hr
    split at hr
    · exact hr
    · split at hr
      · exact hr
      · rcases List.mem_cons.mp hr with rfl | hr
        · rw [Repository.lookup_of, Option.map_eq_some_iff] at hname
          obtain ⟨_, _, h⟩ := hname
          cases h
        · exact hr

theorem visit_mem_patternSteps : .visit m ∈ n.patternSteps ps ↔ ∃ t ∈ n.targets ps, t.node = some m := by
  simp [patternSteps, visits]

theorem visit_mem_captureSteps :
    .visit m ∈ n.captureSteps s use ↔ ∃ c, (c, some m) ∈ n.captureTargets s use := by
  simp [captureSteps, visits]

theorem mem_captures {c : Capture Address} : c ∈ n.captures s use ↔ ∃ m, (c, m) ∈ n.captureTargets s use := by
  simp [captures]

theorem known_of_target {t : Target} (ht : t ∈ n.targets ps) :
    (∃ m, .visit m ∈ n.patternSteps ps ∧ m.address = t.address) ∨ Known n.sight t.address := by
  obtain ⟨_, _, h⟩ := List.mem_filterMap.mp ht
  rcases node_of_target? h with ⟨m, hm, ha⟩ | ⟨_, hk⟩
  · exact .inl ⟨m, visit_mem_patternSteps.mpr ⟨t, ht, hm⟩, ha⟩
  · exact .inr (known_inside hk)

theorem visit_of_capture {c : Capture Address} {a : Address} (hc : c ∈ n.captures s use) (ha : c.patterns = some a) :
    ∃ m, .visit m ∈ n.captureSteps s use ∧ m.address = a := by
  obtain ⟨m?, hm⟩ := mem_captures.mp hc
  obtain ⟨⟨key, source⟩, _, h⟩ := List.mem_filterMap.mp hm
  obtain ⟨group, _, h⟩ := Option.map_eq_some_iff.mp h
  split at h
  · cases h
    cases ha
  · cases h
    cases ha
    exact ⟨_, visit_mem_captureSteps.mpr ⟨_, hm⟩, rfl⟩

/-- A rule refers to what it leads on to and to what is known. -/
theorem mem_keys_rule {a : Address} (h : a ∈ n.rule.keys) :
    (∃ m, .visit m ∈ n.steps ∧ m.address = a) ∨ Known n.sight a := by
  have hpatterns (ps : List RuleSource) (hsub : ∀ m, .visit m ∈ n.patternSteps ps → .visit m ∈ n.steps)
      (ha : a ∈ (n.targets ps).map (·.address)) :
      (∃ m, .visit m ∈ n.steps ∧ m.address = a) ∨ Known n.sight a := by
    obtain ⟨t, ht, rfl⟩ := List.mem_map.mp ha
    rcases known_of_target ht with ⟨m, hm, ha⟩ | hk
    · exact .inl ⟨m, hsub m hm, ha⟩
    · exact .inr hk
  have hcaptures (s : RuleSource) (use : CaptureUse) (hsub : ∀ m, .visit m ∈ n.captureSteps s use → .visit m ∈ n.steps)
      (ha : a ∈ (n.captures s use).filterMap (·.patterns)) :
      (∃ m, .visit m ∈ n.steps ∧ m.address = a) ∨ Known n.sight a := by
    obtain ⟨c, hc, ha⟩ := List.mem_filterMap.mp ha
    obtain ⟨m, hm, ha⟩ := visit_of_capture hc ha
    exact .inl ⟨m, hsub m hm, ha⟩
  unfold rule at h
  unfold steps at hpatterns hcaptures ⊢
  cases hb : n.body with
  | group ps =>
    simp only [hb] at h hpatterns hcaptures ⊢
    rcases List.mem_append.mp h with h | h
    · exact hpatterns ps (fun m hm => hm) h
    · cases h
  | rule s =>
    simp only [hb] at h hpatterns hcaptures ⊢
    cases hs : s.shape with
    | group =>
      simp only [hs] at h hpatterns hcaptures ⊢
      rcases List.mem_append.mp h with h | h
      · exact hpatterns s.patterns (fun m hm => hm) h
      · cases h
    | piece p =>
      simp only [hs] at h hpatterns hcaptures ⊢
      rcases List.mem_append.mp h with h | h
      · cases h
      · exact hcaptures s .piece (fun m hm => List.mem_cons_of_mem _ hm) h
    | region opening closing lasting =>
      simp only [hs] at h hpatterns hcaptures ⊢
      rcases List.mem_append.mp h with h | h
      · exact hpatterns s.patterns (fun m hm => by simp [hm]) h
      · simp only [Rule.captures, List.filterMap_append, List.mem_append] at h
        rcases h with h | h
        · exact hcaptures s .opening (fun m hm => by simp [hm]) h
        · exact hcaptures s (.atEnd lasting) (fun m hm => by simp [hm]) h

end Node

inductive Node.LeadsTo (n : Node) : Node → Prop
  | named {name : String} {inner outer : List Repository} {r : Repository} {source : RuleSource} :
    n.inside = inner ++ r :: outer → (∀ r' ∈ inner, r'.entries.lookup name = none) →
    r.entries.lookup name = some (some source) →
    LeadsTo n ⟨r.addressOf name, r.without name :: outer, name, (Site.ofEntry source).body⟩
  | pattern {index : Nat} {s : RuleSource} : n.body.patterns[index]? = some s → s.disabled = false →
    s.reference = none → LeadsTo n ⟨.inner n.address (.pattern index), n.inside, n.innerLabel, .rule s⟩
  | capture {s : RuleSource} {use : CaptureUse} {key : String} {c : RuleSource} : n.body = .rule s →
    (key, c) ∈ s.capturesFor use → c.patterns.isEmpty = false →
    LeadsTo n ⟨.inner n.address (.capture use key), n.inside, n.innerLabel, .group c.patterns⟩

namespace Node

variable {n m : Node}

theorem leadsTo_of_pattern (h : .visit m ∈ n.patternSteps n.body.patterns) : n.LeadsTo m := by
  obtain ⟨t, ht, hm⟩ := visit_mem_patternSteps.mp h
  obtain ⟨⟨s, index⟩, hs, ht⟩ := List.mem_filterMap.mp ht
  have hget : n.body.patterns[index]? = some s := by
    have := List.mem_zipIdx_iff_getElem?.mp hs
    simpa using this
  simp only [target?] at ht
  split at ht
  · cases ht
  · rename_i hdisabled
    split at ht
    · unfold referred? at ht
      split at ht
      · cases ht
        cases hm
      · split at ht
        · obtain ⟨inner, r, outer, source?, hi, hr, _, hnone, hn⟩ := resolve_eq_some ht
          cases source? with
          | none =>
            rw [hn] at hm
            cases hm
          | some source =>
            rw [hn] at hm
            cases hm
            exact .named hi hnone hr
        · cases ht
    · rename_i href
      cases ht
      cases hm
      exact .pattern hget (by simpa using hdisabled) href

theorem leadsTo_of_capture {s : RuleSource} {use : CaptureUse} (hb : n.body = .rule s)
    (h : .visit m ∈ n.captureSteps s use) : n.LeadsTo m := by
  obtain ⟨x, h⟩ := visit_mem_captureSteps.mp h
  obtain ⟨⟨key, c⟩, hc, h⟩ := List.mem_filterMap.mp h
  obtain ⟨group, _, h⟩ := Option.map_eq_some_iff.mp h
  split at h
  · cases h
  · rename_i hne
    cases h
    exact .capture hb hc (by simpa using hne)

theorem leadsTo_of_visit (h : .visit m ∈ n.steps) : n.LeadsTo m := by
  unfold steps at h
  split at h
  · rename_i ps hb
    have hps : n.body.patterns = ps := by rw [hb]; rfl
    exact leadsTo_of_pattern (hps ▸ h)
  · rename_i s hb
    have hps : n.body.patterns = s.patterns := by rw [hb]; rfl
    split at h
    · exact leadsTo_of_pattern (hps ▸ h)
    · rcases List.mem_cons.mp h with h | h
      · cases h
      · exact leadsTo_of_capture hb h
    · simp only [List.cons_append, List.mem_cons, List.mem_append, List.mem_map, reduceCtorEq, and_false,
        exists_false, false_or, or_false] at h
      rcases h with (h | h) | h
      · exact leadsTo_of_capture hb h
      · exact leadsTo_of_capture hb h
      · exact leadsTo_of_pattern (hps ▸ h)

end Node

/-- What is known where a rule leads on to another is known there, or is the address of that one. -/
theorem known_of_visit {n m : Node} (hm : .visit m ∈ n.steps) {a : Address} (ha : Known m.sight a) :
    Known n.sight a ∨ a = m.address := by
  cases Node.leadsTo_of_visit hm with
  | @named name inner outer r source hi _ hr =>
    rcases ha with ha | ⟨r', hr', x, hx, ha⟩
    · exact .inl (.inl ha)
    · rcases List.mem_cons.mp hr' with rfl | hr'
      · rw [Repository.lookup_without] at hx
        by_cases hname : x = name
        · exact .inr (hname ▸ ha)
        · rw [if_neg hname] at hx
          exact .inl (Node.known_inside (.inr ⟨r, by simp [hi], x, hx, ha⟩))
      · exact .inl (Node.known_inside (.inr ⟨r', by simp [hi, hr'], x, hx, ha⟩))
  | pattern => exact .inl (Node.known_inside ha)
  | capture => exact .inl (Node.known_inside ha)

/-! ## Drafts -/

namespace Draft

def follow (d : Draft) : Step → Draft
  | .read label source => d.addRead label source
  | .visit m => d.layOut m

theorem layOut_eq (n : Node) (d : Draft) :
    d.layOut n = if n.address ∈ d.addresses then d else n.steps.foldl follow (d.add n) := by
  rw [layOut]
  congr 1
  refine Eq.trans ?_ (List.foldl_attach ..)
  congr 1
  funext d s
  obtain ⟨s, hs⟩ := s
  cases s with
  | read label source => rfl
  | visit m => rfl

/-- Nodes that a property holds of lead on to such nodes, as far as nothing was laid out at the
same address just before. -/
def Hereditary (Good : Node → Prop) : Prop :=
  ∀ n, Good n → ∀ before m after, n.steps = before ++ .visit m :: after →
    (∀ k, .visit k ∈ before → k.address ≠ m.address) → Good m

/-- One draft is a part of another, where what has been added is good, and leads to nothing
that is missing. -/
structure Grows (Good : Node → Prop) (d e : Draft) : Prop where
  more : d.nodes <+: e.nodes
  added : ∀ m ∈ e.nodes, m ∈ d.nodes ∨ Good m ∧ ∀ a ∈ m.rule.keys, a ∈ e.addresses
  nodup : d.addresses.Nodup → e.addresses.Nodup

variable {Good : Node → Prop} {d e f : Draft}

theorem Grows.addresses (h : Grows Good d e) {a : Address} (ha : a ∈ d.addresses) : a ∈ e.addresses :=
  (h.more.map Node.address).subset ha

theorem Grows.refl (d : Draft) : Grows Good d d :=
  ⟨List.prefix_rfl, fun _ hm => .inl hm, id⟩

theorem Grows.trans (hde : Grows Good d e) (hef : Grows Good e f) : Grows Good d f := by
  refine ⟨hde.more.trans hef.more, ?_, fun hd => hef.nodup (hde.nodup hd)⟩
  intro m hm
  rcases hef.added m hm with hm | hm
  · rcases hde.added m hm with hm | ⟨hg, hk⟩
    · exact .inl hm
    · exact .inr ⟨hg, fun a ha => hef.addresses (hk a ha)⟩
  · exact .inr hm

theorem addresses_add (d : Draft) (n : Node) : (d.add n).addresses = d.addresses ++ [n.address] := by
  simp [addresses, add]

theorem grows_addRead (d : Draft) (label source : String) : Grows Good d (d.addRead label source) :=
  ⟨List.prefix_rfl, fun _ hm => .inl hm, id⟩

/-- Following the steps of a node one after another, where each leads to a smaller node. -/
theorem grows_foldl {n : Node} (hgood : Hereditary Good) (hn : Good n)
    (ih : ∀ m, .visit m ∈ n.steps → ∀ d : Draft, Good m → (∀ a, Known m.sight a → a ∈ d.addresses ∨ a = m.address) →
      Grows Good d (d.layOut m) ∧ m.address ∈ (d.layOut m).addresses) :
    ∀ (before after : List Step) (d : Draft), n.steps = before ++ after →
      (∀ a, Known n.sight a → a ∈ d.addresses) → (∀ k, .visit k ∈ before → k.address ∈ d.addresses) →
      Grows Good d (after.foldl follow d) ∧ ∀ k, .visit k ∈ n.steps → k.address ∈ (after.foldl follow d).addresses
  | before, [], d, hs, _, hb => by
    rw [List.append_nil] at hs
    exact ⟨.refl d, fun k hk => hb k (hs ▸ hk)⟩
  | before, .read label source :: after, d, hs, hk, hb => by
    have hs' : n.steps = (before ++ [.read label source]) ++ after := by simp [hs]
    obtain ⟨h1, h2⟩ := grows_foldl hgood hn ih (before ++ [.read label source]) after (d.addRead label source) hs'
      hk (fun k hk => hb k (by simpa using hk))
    exact ⟨(grows_addRead d label source).trans h1, h2⟩
  | before, .visit m :: after, d, hs, hk, hb => by
    have hs' : n.steps = (before ++ [.visit m]) ++ after := by simp [hs]
    have hm : .visit m ∈ n.steps := by simp [hs]
    have hstep : Grows Good d (d.layOut m) ∧ m.address ∈ (d.layOut m).addresses := by
      by_cases hmem : m.address ∈ d.addresses
      · rw [layOut_eq, if_pos hmem]
        exact ⟨.refl d, hmem⟩
      · have hg : Good m := hgood n hn before m after hs fun k hkb hka => hmem (hka ▸ hb k hkb)
        refine ih m hm d hg fun a ha => ?_
        rcases known_of_visit hm ha with ha | ha
        · exact .inl (hk a ha)
        · exact .inr ha
    obtain ⟨h1, h2⟩ := grows_foldl hgood hn ih (before ++ [.visit m]) after (d.layOut m) hs'
      (fun a ha => hstep.1.addresses (hk a ha)) (by
        intro k hkb
        rcases List.mem_append.mp hkb with hkb | hkb
        · exact hstep.1.addresses (hb k hkb)
        · rw [List.mem_singleton, Step.visit.injEq] at hkb
          exact hkb ▸ hstep.2)
    exact ⟨hstep.1.trans h1, h2⟩

theorem grows_layOut (hgood : Hereditary Good) (n : Node) (d : Draft) (hn : Good n)
    (hk : ∀ a, Known n.sight a → a ∈ d.addresses ∨ a = n.address) :
    Grows Good d (d.layOut n) ∧ n.address ∈ (d.layOut n).addresses ∧
      (n.address ∉ d.addresses → d.nodes ++ [n] <+: (d.layOut n).nodes) := by
  rw [layOut_eq]
  by_cases hmem : n.address ∈ d.addresses
  · rw [if_pos hmem]
    exact ⟨.refl d, hmem, fun h => absurd hmem h⟩
  · rw [if_neg hmem]
    have hk' : ∀ a, Known n.sight a → a ∈ (d.add n).addresses := by
      intro a ha
      rw [addresses_add]
      rcases hk a ha with ha | ha
      · exact List.mem_append_left _ ha
      · exact List.mem_append_right _ (List.mem_singleton.mpr ha)
    obtain ⟨hgrows, hvisits⟩ := grows_foldl hgood hn (fun m hm d hg hk =>
      ⟨(grows_layOut hgood m d hg hk).1, (grows_layOut hgood m d hg hk).2.1⟩) [] n.steps (d.add n) rfl hk' (fun k hk => by cases hk)
    have hlast : n.address ∈ (n.steps.foldl follow (d.add n)).addresses :=
      hgrows.addresses (by simp [addresses_add])
    refine ⟨⟨?_, ?_, ?_⟩, hlast, fun _ => hgrows.more⟩
    · exact (List.prefix_append d.nodes [n]).trans hgrows.more
    · intro m hm
      rcases hgrows.added m hm with hm | hm
      · rcases List.mem_append.mp hm with hm | hm
        · exact .inl hm
        · rw [List.mem_singleton] at hm
          subst hm
          refine .inr ⟨hn, fun a ha => ?_⟩
          rcases Node.mem_keys_rule ha with ⟨k, hk, rfl⟩ | ha
          · exact hvisits k hk
          · exact hgrows.addresses (hk' a ha)
      · exact .inr hm
    · intro hd
      refine hgrows.nodup ?_
      rw [addresses_add, List.nodup_append]
      simp [hd]
      intro a ha he
      exact hmem (he ▸ ha)
termination_by n.weight
decreasing_by exact Node.weight_lt_of_visit hm

end Draft

end Highlight.Grammar
