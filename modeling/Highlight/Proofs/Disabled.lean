import Highlight.Proofs.Emptied
import Highlight.Proofs.LexicalScope

/-!
# Disabled rules

Nothing starts by a disabled rule, unless it is a named rule of its own: with empty groups for
disabled rules a grammar is laid out as before, with more groups that hold nothing, so what it
is compiled to has the rules of before, and highlights the same. But a named rule is not asked
whether it is disabled.
-/

namespace Highlight

namespace Rule

variable {ι κ μ π ρ ε : Type} {parse : π → Except ε ρ}

theorem read_carry (f : ι → κ) (inside : List κ) (r : Rule ι π) :
    (r.carry f inside).read parse = (r.read parse).map (·.carry f inside) := by
  cases r with
  | container ps => rfl
  | piece name p cs =>
    rw [carry, read, read]
    cases parse p with
    | error e => rfl
    | ok q => rfl
  | region r =>
    obtain ⟨name, contentName, opening, openingCaptures, closing, closingCaptures, patterns, lasting⟩ := r
    simp only [carry, Region.carry, read]
    cases parse opening with
    | error e => rfl
    | ok opening =>
      cases closing.read parse with
      | error e => rfl
      | ok closing => rfl

/-- A rule with another list, renumbered in one go or in two. -/
theorem renumber_carry {r : Rule ι π} {inside : List ι} {f : ι → κ} {f' : κ → μ} {f'' : ι → μ}
    (h : ∀ k ∈ r.keys, f' (f k) = f'' k) :
    (r.carry id inside).renumber f'' = (r.renumber f).carry f' (inside.map f'') := by
  have hcs (cs : List (Capture ι)) (hsub : cs ⊆ r.captures) :
      (cs.map (·.renumber id)).map (·.renumber f'') = (cs.map (·.renumber f)).map (·.renumber f') := by
    rw [List.map_map, List.map_map]
    refine List.map_congr_left fun c hc => ?_
    obtain ⟨group, name, patterns⟩ := c
    cases patterns with
    | none => rfl
    | some k =>
      have hk : k ∈ r.keys := List.mem_append_right _ (List.mem_filterMap.mpr ⟨_, hsub hc, rfl⟩)
      simp [Capture.renumber, h k hk]
  cases r with
  | container ps => rfl
  | piece name p cs =>
    simp only [carry, renumber]
    rw [hcs cs (List.Subset.refl _)]
  | region r =>
    simp only [carry, Region.carry, renumber]
    rw [hcs r.openingCaptures (List.subset_append_left ..), hcs r.closingCaptures (List.subset_append_right ..)]

end Rule

namespace Grammar

/-! ## Drafts -/

/-- The second draft has empty groups besides, in places of disabled rules. -/
structure Draft.Alike (d d' : Draft) : Prop where
  nodes : Padded (fun m => ∃ n ∈ d.nodes, n.Leaves m) Node.Alike d.nodes d'.nodes
  reads : d'.reads = d.reads
  once : d.addresses.Nodup
  owned : ∀ o slot, .inner o slot ∈ d.addresses → o ∈ d.addresses
  clear : ∀ n ∈ d.nodes, ∀ a, n.Silences a → a ∉ d.addresses

/-- The node is not in place of a disabled rule, and what it is in has been laid out. -/
structure Draft.Admits (d : Draft) (n : Node) : Prop where
  clear : ∀ k ∈ d.nodes, ¬k.Silences n.address
  owned : ∀ o slot, n.address = .inner o slot → o ∈ d.addresses

theorem Address.inner_ne (o : Address) (slot : Slot) : Address.inner o slot ≠ o := by
  intro h
  have := congrArg sizeOf h
  simp at this
  omega

namespace Draft.Alike

variable {d d' : Draft} {n n' m m' : Node}

theorem mem_addresses_iff (hd : d.Alike d') (hn : n.Alike n') (ha : d.Admits n) :
    n'.address ∈ d'.addresses ↔ n.address ∈ d.addresses := by
  rw [hn.address]
  constructor
  · intro h
    obtain ⟨k', hk', hk⟩ := List.mem_map.mp h
    rcases hd.nodes.extra_or_exists_left hk' with ⟨k, hkd, hleaves⟩ | ⟨k, hkd, hkk⟩
    · exact absurd (hk ▸ hleaves.2) (ha.clear k hkd)
    · exact List.mem_map.mpr ⟨k, hkd, hkk.address.symm.trans hk⟩
  · intro h
    obtain ⟨k, hkd, hk⟩ := List.mem_map.mp h
    obtain ⟨k', hk', hkk⟩ := hd.nodes.exists_right hkd
    exact List.mem_map.mpr ⟨k', hk', hkk.address.trans hk⟩

theorem add (hd : d.Alike d') (hn : n.Alike n') (ha : d.Admits n) (hnew : n.address ∉ d.addresses) :
    (d.add n).Alike (d'.add n') where
  nodes := by
    refine Padded.append (hd.nodes.imp_extra ?_) (.keep hn .nil)
    rintro m ⟨k, hk, hleaves⟩
    exact ⟨k, List.mem_append_left _ hk, hleaves⟩
  reads := hd.reads
  once := by
    rw [addresses_add, List.nodup_append]
    refine ⟨hd.once, by simp, ?_⟩
    intro a haddress b hb heq
    obtain rfl := List.mem_singleton.mp hb
    exact hnew (heq ▸ haddress)
  owned o slot h := by
    rw [addresses_add] at h ⊢
    apply List.mem_append_left
    rcases List.mem_append.mp h with h | h
    · exact hd.owned o slot h
    · exact ha.owned o slot (List.mem_singleton.mp h).symm
  clear k hk a hsilences := by
    rw [addresses_add, List.mem_append, List.mem_singleton]
    rcases List.mem_append.mp hk with hk | hk
    · rintro (h | rfl)
      · exact hd.clear k hk a hsilences h
      · exact ha.clear k hk hsilences
    · -- nothing in the new rule has been laid out before it
      obtain rfl := List.mem_singleton.mp hk
      obtain ⟨i, s, _, _, rfl⟩ := hsilences
      rintro (h | h)
      · exact hnew (hd.owned _ _ h)
      · exact Address.inner_ne _ _ h

theorem addRead (hd : d.Alike d') (label source : String) : (d.addRead label source).Alike (d'.addRead label source) where
  nodes := hd.nodes
  reads := congrArg (· ++ [(label, source)]) hd.reads
  once := hd.once
  owned := hd.owned
  clear := hd.clear

/-- What a rule leads on to is not in place of a disabled rule. -/
theorem admits (hd : d.Alike d') (hn : n ∈ d.nodes) (hm : .visit m ∈ n.steps) : d.Admits m := by
  have hmem : n.address ∈ d.addresses := List.mem_map_of_mem hn
  constructor
  · rintro k hk ⟨i, s, hs, hdisabled, ha⟩
    cases Node.leadsTo_of_visit hm with
    | named => cases ha
    | @pattern index s' hget hs' _ =>
      rw [Address.inner.injEq, Slot.pattern.injEq] at ha
      obtain ⟨howner, rfl⟩ := ha
      obtain rfl : k = n := List.inj_on_of_nodup_map hd.once hk hn howner.symm
      rw [hs, Option.some.injEq] at hget
      rw [hget, hs'] at hdisabled
      cases hdisabled
    | capture =>
      rw [Address.inner.injEq] at ha
      cases ha.2
  · intro o slot ha
    cases Node.leadsTo_of_visit hm with
    | named => cases ha
    | pattern =>
      rw [Address.inner.injEq] at ha
      exact ha.1 ▸ hmem
    | capture =>
      rw [Address.inner.injEq] at ha
      exact ha.1 ▸ hmem

/-- An empty group leads on to nothing. -/
theorem leave (hd : d.Alike d') (hn : n ∈ d.nodes) (hm : n.Leaves m) : d.Alike (d'.layOut m) := by
  rw [layOut_eq]
  by_cases hmem : m.address ∈ d'.addresses
  · rw [if_pos hmem]
    exact hd
  · have hsteps : m.steps = [] := by
      unfold Node.steps
      rw [hm.1]
      rfl
    rw [if_neg hmem, hsteps]
    refine ⟨?_, hd.reads, hd.once, hd.owned, hd.clear⟩
    have hnodes := hd.nodes.append (.extra ⟨n, hn, hm⟩ .nil : Padded _ Node.Alike [] [m])
    rwa [List.append_nil] at hnodes

theorem foldl {steps steps' : List Step} (hs : Padded (fun st => ∃ m, st = .visit m ∧ n.Leaves m) Step.Alike steps steps')
    (ih : ∀ m, .visit m ∈ n.steps → ∀ m', m.Alike m' → ∀ d d' : Draft, d.Alike d' → d.Admits m →
      (d.layOut m).Alike (d'.layOut m') ∧ d.nodes ⊆ (d.layOut m).nodes)
    (hsub : steps ⊆ n.steps) (hn : n ∈ d.nodes) (hd : d.Alike d') :
    (steps.foldl follow d).Alike (steps'.foldl follow d') ∧ d.nodes ⊆ (steps.foldl follow d).nodes := by
  induction hs generalizing d d' with
  | nil => exact ⟨hd, List.Subset.refl _⟩
  | keep hst _ ihrest =>
    rw [List.foldl_cons, List.foldl_cons]
    cases hst with
    | read => exact ihrest (List.subset_of_cons_subset hsub) hn (hd.addRead _ _)
    | @visit m m' hm =>
      have hmem : .visit m ∈ n.steps := hsub (List.mem_cons_self ..)
      obtain ⟨h1, h2⟩ := ih m hmem m' hm d d' hd (hd.admits hn hmem)
      obtain ⟨h3, h4⟩ := ihrest (List.subset_of_cons_subset hsub) (h2 hn) h1
      exact ⟨h3, List.Subset.trans h2 h4⟩
  | extra hst _ ihrest =>
    obtain ⟨m, rfl, hm⟩ := hst
    rw [List.foldl_cons]
    exact ihrest hsub hn (hd.leave hn hm)

theorem layOut (n : Node) {n' : Node} {d d' : Draft} (hn : n.Alike n') (hd : d.Alike d') (ha : d.Admits n) :
    (d.layOut n).Alike (d'.layOut n') ∧ d.nodes ⊆ (d.layOut n).nodes := by
  have hsame := hd.mem_addresses_iff hn ha
  rw [layOut_eq, layOut_eq]
  by_cases hmem : n.address ∈ d.addresses
  · rw [if_pos hmem, if_pos (hsame.mpr hmem)]
    exact ⟨hd, List.Subset.refl _⟩
  · rw [if_neg hmem, if_neg (mt hsame.mp hmem)]
    obtain ⟨h1, h2⟩ := foldl hn.steps (fun m hm m' hmm d d' hd ha => layOut m hmm hd ha) (List.Subset.refl _)
      (List.mem_append_right _ (List.mem_singleton_self n)) (hd.add hn ha hmem)
    exact ⟨h1, List.Subset.trans (List.subset_append_left ..) h2⟩
termination_by n.weight
decreasing_by exact Node.weight_lt_of_visit hm

end Draft.Alike

variable {engine : Engine} {g g' : GrammarSource} {scopeName : String}

theorem GrammarSource.Emptied.draft (h : g.Emptied g') (scopeName : String) :
    (g.draft scopeName).Alike (g'.draft scopeName) := by
  have hroot : (rootNode g scopeName).Alike (rootNode g' scopeName) :=
    ⟨rfl, rfl, .cons (.of .root h.repository) .nil, .group h.patterns⟩
  have hempty : Draft.empty.Alike Draft.empty :=
    { nodes := .nil, reads := rfl, once := .nil, owned := fun _ _ => nofun, clear := nofun }
  have hadmits : Draft.empty.Admits (rootNode g scopeName) := { clear := nofun, owned := nofun }
  exact (hempty.layOut _ hroot hadmits).1

/-! ## Compiled rules -/

structure Draft.Compiles (d : Draft) (parse : String → Except Error Pattern) (rules : Array (Rule Nat Pattern)) : Prop where
  once : d.addresses.Nodup
  keys : ∀ n ∈ d.nodes, ∀ a ∈ n.rule.keys, a ∈ d.addresses
  rules : List.Forall₂ (fun (n : Node) r => (n.rule.renumber d.addresses.idxOf).read parse = .ok r) d.nodes rules.toList

theorem compiles_of_compile {G : Grammar} (h : compile engine g = .ok G) :
    (g.draft G.scopeName).Compiles (readPattern engine G.scopeName) G.rules where
  once := GrammarSource.nodup_draft
  keys _ hn _ ha := GrammarSource.keys_of_mem_draft hn ha
  rules := (compile_eq_ok h).2

namespace Draft.Compiles

variable {d : Draft} {parse : String → Except Error Pattern} {rules : Array (Rule Nat Pattern)} {i : Nat}

theorem size (h : d.Compiles parse rules) : rules.size = d.addresses.length := by
  rw [← Array.length_toList, ← h.rules.length_eq, addresses, List.length_map]

theorem node (h : d.Compiles parse rules) {r : Rule Nat Pattern} (hr : rules[i]? = some r) :
    ∃ n ∈ d.nodes, d.addresses[i]? = some n.address ∧ (n.rule.renumber d.addresses.idxOf).read parse = .ok r := by
  have hrel := rel_getElem? h.rules i
  rw [Array.getElem?_toList, hr] at hrel
  generalize hn : d.nodes[i]? = n? at hrel
  cases hrel with
  | some hread => exact ⟨_, List.mem_of_getElem? hn, by rw [addresses, List.getElem?_map, hn]; rfl, hread⟩

theorem rule (h : d.Compiles parse rules) {n : Node} (hn : n ∈ d.nodes) :
    ∃ r, rules[d.addresses.idxOf n.address]? = some r ∧ (n.rule.renumber d.addresses.idxOf).read parse = .ok r := by
  obtain ⟨k, hk, hget⟩ := List.mem_iff_getElem.mp hn
  have hk' : k < d.addresses.length := by rwa [addresses, List.length_map]
  have haddress : d.addresses[k] = n.address := by
    simp only [addresses, List.getElem_map, hget]
  have hidx : d.addresses.idxOf n.address = k := by
    rw [← haddress]
    exact h.once.idxOf_getElem k hk'
  have hrel := rel_getElem? h.rules k
  rw [Array.getElem?_toList, List.getElem?_eq_getElem hk, hget] at hrel
  rw [hidx]
  generalize rules[k]? = r? at hrel
  cases hrel with
  | some hread => exact ⟨_, rfl, hread⟩

end Draft.Compiles

namespace Draft

def placement (d d' : Draft) (rules' : Array (Rule Nat Pattern)) : Placement :=
  let number i := match d.addresses[i]? with
    | some a => d'.addresses.idxOf a
    | none => i + d'.addresses.length
  { number, inside := fun i => (rules'[number i]?.map (·.patterns)).getD [] }

def Mute (d d' : Draft) (j : Nat) : Prop :=
  ∃ n ∈ d.nodes, ∃ a ∈ d'.addresses, n.Silences a ∧ j = d'.addresses.idxOf a

end Draft

namespace Draft.Alike

variable {d d' : Draft} {rules rules' : Array (Rule Nat Pattern)} {parse : String → Except Error Pattern} {i : Nat}

theorem number_of_some {a : Address} (h : d.addresses[i]? = some a) :
    (d.placement d' rules').number i = d'.addresses.idxOf a := by
  simp only [placement, h]

theorem number_of_none (h : d.addresses[i]? = none) : (d.placement d' rules').number i = i + d'.addresses.length := by
  simp only [placement, h]

theorem mem_addresses (hd : d.Alike d') {a : Address} (ha : a ∈ d.addresses) : a ∈ d'.addresses := by
  obtain ⟨n, hn, rfl⟩ := List.mem_map.mp ha
  obtain ⟨n', hn', hnn⟩ := hd.nodes.exists_right hn
  exact List.mem_map.mpr ⟨n', hn', hnn.address⟩

theorem number_idxOf {a : Address} (ha : a ∈ d.addresses) :
    (d.placement d' rules').number (d.addresses.idxOf a) = d'.addresses.idxOf a := by
  refine number_of_some ?_
  rw [List.getElem?_eq_getElem (List.idxOf_lt_length_of_mem ha), List.getElem_idxOf]

theorem number_injective (hd : d.Alike d') : Function.Injective (d.placement d' rules').number := by
  have hlt {a : Address} {k : Nat} (hk : d.addresses[k]? = some a) : d'.addresses.idxOf a < d'.addresses.length :=
    List.idxOf_lt_length_of_mem (hd.mem_addresses (List.mem_of_getElem? hk))
  intro i j h
  cases hi : d.addresses[i]? with
  | none =>
    rw [number_of_none hi] at h
    cases hj : d.addresses[j]? with
    | none =>
      rw [number_of_none hj] at h
      omega
    | some b =>
      rw [number_of_some hj] at h
      have := hlt hj
      omega
  | some a =>
    rw [number_of_some hi] at h
    cases hj : d.addresses[j]? with
    | none =>
      rw [number_of_none hj] at h
      have := hlt hi
      omega
    | some b =>
      rw [number_of_some hj] at h
      have hab : a = b := (List.idxOf_inj (hd.mem_addresses (List.mem_of_getElem? hi))).mp h
      have hil := (List.getElem?_eq_some_iff.mp hi).1
      exact (List.getElem?_inj hil hd.once).mp (hi.trans (hab ▸ hj.symm))

/-- An empty group has no rule of the first draft for it. -/
theorem ne_mute (hd : d.Alike d') (i : Nat) : ¬d.Mute d' ((d.placement d' rules').number i) := by
  rintro ⟨n, hn, a, ha, hsilences, h⟩
  cases hi : d.addresses[i]? with
  | none =>
    rw [number_of_none hi] at h
    have := List.idxOf_lt_length_of_mem ha
    omega
  | some b =>
    rw [number_of_some hi] at h
    have hb := List.mem_of_getElem? hi
    have hba : b = a := (List.idxOf_inj (hd.mem_addresses hb)).mp h
    exact hd.clear n hn a hsilences (hba ▸ hb)

theorem container_of_mute (hd : d.Alike d') (hc : d'.Compiles parse rules') {j : Nat} {r : Rule Nat Pattern}
    (hj : d.Mute d' j) (hr : rules'[j]? = some r) : r = .container [] := by
  obtain ⟨n, hn, a, ha, hsilences, rfl⟩ := hj
  obtain ⟨m', hm', rfl⟩ := List.mem_map.mp ha
  obtain ⟨r', hr', hread⟩ := hc.rule hm'
  rw [hr, Option.some.injEq] at hr'
  subst hr'
  rcases hd.nodes.extra_or_exists_left hm' with ⟨_, _, hleaves⟩ | ⟨m, hm, hmm⟩
  · rw [hleaves.rule] at hread
    exact Rule.read_container.mp hread
  · refine absurd ?_ (hd.clear n hn _ hsilences)
    rw [hmm.address]
    exact List.mem_map_of_mem hm

/-- What a rule of the first draft becomes, and how it is listed in the second one. -/
theorem placed_of_node (hd : d.Alike d') (hc : d.Compiles parse rules) (hc' : d'.Compiles parse rules') {n : Node}
    (hn : n ∈ d.nodes) (hi : d.addresses[i]? = some n.address) {r : Rule Nat Pattern}
    (hread : (n.rule.renumber d.addresses.idxOf).read parse = .ok r) :
    rules'[(d.placement d' rules').number i]? =
        some (r.carry (d.placement d' rules').number ((d.placement d' rules').inside i)) ∧
      Padded (d.Mute d') (fun i j => j = (d.placement d' rules').number i) r.patterns
        (r.carry (d.placement d' rules').number ((d.placement d' rules').inside i)).patterns := by
  obtain ⟨n', hn', hnn⟩ := hd.nodes.exists_right hn
  obtain ⟨hrule, hpadded⟩ := hnn.rule
  obtain ⟨r', hr', hread'⟩ := hc'.rule hn'
  have hnumber : (d.placement d' rules').number i = d'.addresses.idxOf n.address := number_of_some hi
  rw [hnn.address, ← hnumber] at hr'
  have hinside : (d.placement d' rules').inside i = r'.patterns := by
    show ((rules'[(d.placement d' rules').number i]?).map (·.patterns)).getD [] = _
    rw [hr']
    rfl
  have hpatterns' : r'.patterns = n'.rule.patterns.map d'.addresses.idxOf := by
    rw [(Rule.of_read hread').2.1, Rule.patterns_renumber]
  have hcarry : r' = r.carry (d.placement d' rules').number ((d.placement d' rules').inside i) := by
    rw [hrule, Rule.renumber_carry fun a ha => number_idxOf (hc.keys n hn a ha), Rule.read_carry, hread] at hread'
    rw [hinside, hpatterns']
    exact (Except.ok.inj hread').symm
  rw [← hcarry]
  refine ⟨hr', ?_⟩
  rw [(Rule.of_read hread).2.1, Rule.patterns_renumber, hpatterns']
  refine hpadded.map ?_ ?_
  · intro a ha b _ hb
    rw [hb]
    exact (number_idxOf (hc.keys n hn a (List.mem_append_left _ ha))).symm
  · intro a ha hsilences
    exact ⟨n, hn, a, hc'.keys n' hn' a (List.mem_append_left _ ha), hsilences, rfl⟩

theorem holds (hd : d.Alike d') (hc : d.Compiles parse rules) (hc' : d'.Compiles parse rules') :
    (d.placement d' rules').Holds (d.Mute d') rules rules' where
  apart := hd.number_injective
  placed i := by
    cases hr : rules[i]? with
    | none =>
      have hi : rules.size ≤ i := Array.getElem?_eq_none_iff.mp hr
      rw [hc.size] at hi
      rw [number_of_none (List.getElem?_eq_none hi)]
      refine Array.getElem?_eq_none ?_
      rw [hc'.size]
      omega
    | some r =>
      obtain ⟨n, hn, hi, hread⟩ := hc.node hr
      exact (hd.placed_of_node hc hc' hn hi hread).1
  inside i r hr := by
    obtain ⟨n, hn, hi, hread⟩ := hc.node hr
    exact (hd.placed_of_node hc hc' hn hi hread).2
  ne_mute := hd.ne_mute
  mute _ _ hj hr := hd.container_of_mute hc' hj hr

end Draft.Alike

/-! ## Compiling -/

theorem fault?_compile (h : g.Emptied g') : Results.fault? (compile engine g') = Results.fault? (compile engine g) := by
  have hlast {sc : String} {rules : List (Rule Nat String)} {name : Option String} :
      Results.fault? (rules.mapM (Rule.read (readPattern engine sc)) >>= fun rules =>
        (pure { name, scopeName := sc, rules := rules.toArray } : Except Error Grammar)) =
        rules.findSome? fun r => Results.fault? (r.read (readPattern engine sc)) := by
    rw [← Results.fault?_mapM]
    cases rules.mapM (Rule.read (readPattern engine sc)) with
    | error e => rfl
    | ok rules => rfl
  unfold compile
  rw [h.scopeName]
  cases g.scopeName with
  | none => rfl
  | some sc =>
    have hd := h.draft sc
    show Results.fault? ((g'.draft sc).reads.forM _ >>= fun _ => (g'.draft sc).rules.mapM _ >>= _) =
      Results.fault? ((g.draft sc).reads.forM _ >>= fun _ => (g.draft sc).rules.mapM _ >>= _)
    rw [hd.reads]
    cases (g.draft sc).reads.forM fun x => discard (readPattern engine x.1 x.2) with
    | error e => rfl
    | ok _ =>
      refine hlast.trans (Eq.trans ?_ hlast.symm)
      unfold Draft.rules
      rw [List.findSome?_map, List.findSome?_map]
      refine hd.nodes.findSome?_eq ?_ ?_
      · intro n n' hn
        rw [Function.comp, Function.comp, Rule.read_renumber, Rule.read_renumber, Results.fault?_map, Results.fault?_map,
          hn.rule.1, Rule.read_carry, Results.fault?_map]
      · rintro m ⟨_, _, hleaves⟩
        rw [Function.comp, hleaves.rule]
        rfl

theorem embeds_of_compile {G G' : Grammar} (h : g.Emptied g') (hG : compile engine g = .ok G)
    (hG' : compile engine g' = .ok G') : ∃ P, Embeds P G G' := by
  have hscope : G'.scopeName = G.scopeName := by
    have := h.scopeName
    rw [(compile_eq_ok hG).1, (compile_eq_ok hG').1] at this
    exact Option.some.inj this
  have hd := h.draft G.scopeName
  have hc := compiles_of_compile hG
  have hc' := compiles_of_compile hG'
  rw [hscope] at hc'
  refine ⟨_, .of_holds hscope ?_ ?_ (hd.holds hc hc')⟩
  · rw [hc.size, hc'.size, Draft.addresses, Draft.addresses, List.length_map, List.length_map]
    exact hd.nodes.length_le
  · -- the root is laid out first
    have hzero (g : GrammarSource) : (g.draft G.scopeName).addresses[0]? = some .root := by
      rw [← List.head?_eq_getElem?, Draft.addresses, List.head?_map, GrammarSource.head?_draft]
      rfl
    rw [Draft.Alike.number_of_some (hzero g)]
    obtain ⟨rest, hrest⟩ := List.head?_eq_some_iff.mp ((List.head?_eq_getElem? ..).trans (hzero g'))
    rw [hrest]
    exact List.idxOf_cons_self

/-- Patterns of lists are asked whether they are disabled. -/
theorem GrammarSource.named_of_disabled {p : Place} {site : Site} {s : RuleSource} (hsite : g.site? p = some site)
    (hb : site.body = .rule s) (hdisabled : s.disabled = true) :
    s.reference = none ∧ ∃ owner name, p = .named owner name := by
  cases p with
  | top =>
    cases hsite
    cases hb
  | named owner name =>
    obtain ⟨_, _, hnamed⟩ := Option.bind_eq_some_iff.mp hsite
    obtain ⟨source, _, rfl⟩ := Option.map_eq_some_iff.mp hnamed
    unfold Site.ofEntry at hb
    by_cases href : source.reference.isSome = true
    · rw [if_pos href] at hb
      cases hb
    · rw [if_neg href] at hb
      cases hb
      exact ⟨by simpa using href, owner, name, rfl⟩
  | inner owner slot =>
    cases slot with
    | pattern index =>
      obtain ⟨outer, _, hslot⟩ := Option.bind_eq_some_iff.mp hsite
      unfold Site.pattern? at hslot
      split at hslot
      · split at hslot
        · rename_i hs
          cases hslot
          cases hb
          rw [hs.1] at hdisabled
          cases hdisabled
        · cases hslot
      · cases hslot
    | capture use key =>
      obtain ⟨ps, hps⟩ := body_of_capture hsite rfl
      rw [hb] at hps
      cases hps

theorem enabled_of_candidate {G : Grammar} (h : compile engine g = .ok G) {i j : Nat} (hj : j ∈ G.candidatesIn i) :
    ∃ n s, (g.draft G.scopeName).nodes[j]? = some n ∧ n.body = .rule s ∧
      (s.disabled = true → s.reference = none ∧ ∃ owner path, n.address = .named owner path) := by
  obtain ⟨r, hr, hstarts⟩ := of_mem_candidatesIn hj
  obtain ⟨n, hn, hread⟩ := exists_node_of_getElem? h hr
  rw [(Rule.of_read hread).1, Rule.isContainer_renumber] at hstarts
  cases hb : n.body with
  | group ps => exact absurd (Node.isContainer_rule hb) hstarts
  | rule s =>
    refine ⟨n, s, hn, hb, fun hdisabled => ?_⟩
    obtain ⟨p, hfits⟩ := GrammarSource.fits_of_mem_draft (List.mem_of_getElem? hn)
    obtain ⟨site, hsite, hbody⟩ := hfits.site
    obtain ⟨href, owner, name, rfl⟩ := GrammarSource.named_of_disabled hsite (hbody.trans hb) hdisabled
    exact ⟨href, _, _, hfits.address⟩

/-- Disabled rules start nowhere, and empty groups in their places make no difference to any
text, except for named rules of their own. -/
theorem compile_emptied (engine : Engine) (g g' : GrammarSource) (h : g.Emptied g') :
    (∃ e, compile engine g = .error e ∧ compile engine g' = .error e) ∨
    ∃ G G', compile engine g = .ok G ∧ compile engine g' = .ok G' ∧
      (∀ i j, j ∈ G.candidatesIn i → ∃ n s, (g.draft G.scopeName).nodes[j]? = some n ∧ n.body = .rule s ∧
        (s.disabled = true → s.reference = none ∧ ∃ owner path, n.address = .named owner path)) ∧
      ∀ text explain, Highlighter.tokenize ⟨G', engine⟩ text explain = Highlighter.tokenize ⟨G, engine⟩ text explain := by
  have hfault : Results.fault? (compile engine g') = Results.fault? (compile engine g) := fault?_compile h
  cases hG : compile engine g with
  | error e =>
    rw [hG] at hfault
    exact .inl ⟨e, rfl, Results.fault?_eq_some.mp hfault⟩
  | ok G =>
    rw [hG] at hfault
    obtain ⟨G', hG'⟩ := Results.fault?_eq_none.mp hfault
    obtain ⟨P, hP⟩ := embeds_of_compile h hG hG'
    refine .inr ⟨G, G', rfl, hG', ?_, ?_⟩
    · intro i j hj
      exact enabled_of_candidate hG hj
    · intro text explain
      exact tokenize_of_embeds hP engine text explain

namespace Silent

open Shadows (reference piece letter)

def word (rule : RuleSource) : RuleSource :=
  { RuleSource.empty with
    pattern := some "w"
    captures := [("0", { RuleSource.empty with patterns := [rule, reference "#other"] })] }

def source (rule other : RuleSource) : GrammarSource where
  name := none
  scopeName := some "s"
  patterns := [rule, word rule]
  repository := [("other", other)]

def disabled : RuleSource :=
  { piece "x" "off" with disabled := true }

def standing : RuleSource :=
  { RuleSource.empty with reference := some "$self", disabled := true }

theorem emptied_word : (word disabled).Emptied (word .empty) := by
  have hreference : (reference "#other").Emptied (reference "#other") :=
    .mk rfl rfl rfl rfl rfl rfl rfl .nil .nil .nil .nil .nil .nil rfl rfl
  have hpatterns : List.Forall₂ (OrEmpty RuleSource.Emptied) [disabled, reference "#other"] [.empty, reference "#other"] :=
    .cons (.empty (s := disabled)) (.cons (.same hreference) .nil)
  refine .mk rfl rfl rfl rfl rfl rfl rfl (.cons ⟨?_⟩ .nil) .nil .nil .nil .nil .nil rfl rfl
  exact .mk rfl rfl rfl rfl rfl rfl rfl .nil .nil .nil .nil hpatterns .nil rfl rfl

theorem emptied_source : (source disabled standing).Emptied (source .empty .empty) where
  name := rfl
  scopeName := rfl
  patterns := .cons (.empty (s := disabled)) (.cons (.same emptied_word) .nil)
  repository := .cons ⟨.empty (s := standing)⟩ .nil

def grammar : Grammar where
  name := none
  scopeName := "s"
  rules := #[.container [1], .piece none (letter 'w') [⟨0, none, some 2⟩], .container [3], .container []]
  candidates := #[[1], [], [], []]
  candidates_eq := by cbv

def padded : Grammar where
  name := none
  scopeName := "s"
  rules := #[.container [1, 2], .container [], .piece none (letter 'w') [⟨0, none, some 3⟩], .container [4, 5],
    .container [], .container []]
  candidates := #[[2], [], [], [], [], []]
  candidates_eq := by cbv

theorem compile_source : compile .backtracking (source disabled standing) = .ok grammar := by cbv

theorem compile_empty : compile .backtracking (source .empty .empty) = .ok padded := by cbv

end Silent

theorem compile_emptied_silent :
    (Silent.source Silent.disabled Silent.standing).Emptied (Silent.source .empty .empty) ∧
      compile .backtracking (Silent.source Silent.disabled Silent.standing) = .ok Silent.grammar ∧
      compile .backtracking (Silent.source .empty .empty) = .ok Silent.padded ∧
      (∀ i j, j ∈ Silent.grammar.candidatesIn i → ∃ n s,
        ((Silent.source Silent.disabled Silent.standing).draft "s").nodes[j]? = some n ∧ n.body = .rule s ∧
        (s.disabled = true → s.reference = none ∧ ∃ owner path, n.address = .named owner path)) ∧
      ∀ text explain, Highlighter.tokenize ⟨Silent.padded, .backtracking⟩ text explain =
        Highlighter.tokenize ⟨Silent.grammar, .backtracking⟩ text explain := by
  refine ⟨Silent.emptied_source, Silent.compile_source, Silent.compile_empty, ?_⟩
  rcases compile_emptied .backtracking _ _ Silent.emptied_source with ⟨e, he, _⟩ | ⟨G, G', hG, hG', hcandidates, htokens⟩
  · rw [Silent.compile_source] at he
    cases he
  · obtain rfl := Except.ok.inj (hG.symm.trans Silent.compile_source)
    obtain rfl := Except.ok.inj (hG'.symm.trans Silent.compile_empty)
    exact ⟨hcandidates, htokens⟩

/-! ## A named rule of its own -/

namespace Unasked

open Shadows (reference piece letter)

def source (s : RuleSource) : GrammarSource where
  name := none
  scopeName := some "s"
  patterns := [reference "#a"]
  repository := [("a", s)]

def grammar : Grammar where
  name := none
  scopeName := "s"
  rules := #[.container [1], .piece (some "one") (letter 'x') []]
  candidates := #[[1], []]
  candidates_eq := by cbv

def emptied : Grammar where
  name := none
  scopeName := "s"
  rules := #[.container [1], .container []]
  candidates := #[[], []]
  candidates_eq := by cbv

theorem compile_source : compile .backtracking (source { piece "x" "one" with disabled := true }) = .ok grammar := by cbv

theorem compile_empty : compile .backtracking (source .empty) = .ok emptied := by cbv

theorem lines_text : (Text.lines "x").map String.toList = [['x']] := by decide

theorem tokenize_grammar : (Highlighter.ofGrammar grammar).tokenize "x" true =
    .ok ⟨[[⟨0, "x", some [⟨"x", ["s", "one"]⟩]⟩]]⟩ := by
  have hfound : (Highlighter.ofGrammar grammar).step 1 ((Highlighter.ofGrammar grammar).scanWithin 1 10) #['x', '\n'] 0
      (.start 0 ["s"]) (.blank 1) = .ok (.next 1 (.start 0 ["s"]) ⟨1, [⟨⟨0, 1⟩, ["s", "one"]⟩]⟩) := by cbv
  have hrest : (Highlighter.ofGrammar grammar).step 1 ((Highlighter.ofGrammar grammar).scanWithin 1 10) #['x', '\n'] 1
      (.start 0 ["s"]) ⟨1, [⟨⟨0, 1⟩, ["s", "one"]⟩]⟩ =
      .ok (.done (.start 0 ["s"]) ⟨1, [⟨⟨0, 1⟩, ["s", "one"]⟩]⟩) := by cbv
  have hpaint : (Highlighter.ofGrammar grammar).paintLine 1 ['x'] (.start 0 ["s"]) = _ :=
    (Highlighter.scan_of_next hfound).trans (Highlighter.scan_of_done hrest)
  rw [Highlighter.tokenize_eq, lines_text]
  show ((Highlighter.ofGrammar grammar).paintLines 1 (.start 0 ["s"]) _).map _ = _
  rw [Highlighter.paintLines_cons_of_ok hpaint]
  rfl

theorem tokenize_emptied : (Highlighter.ofGrammar emptied).tokenize "x" true =
    .ok ⟨[[⟨0, "x", some [⟨"x", ["s"]⟩]⟩]]⟩ := by
  have hrest : (Highlighter.ofGrammar emptied).step 1 ((Highlighter.ofGrammar emptied).scanWithin 1 10) #['x', '\n'] 0
      (.start 0 ["s"]) (.blank 1) = .ok (.done (.start 0 ["s"]) ⟨1, [⟨⟨0, 1⟩, ["s"]⟩]⟩) := by rfl
  have hpaint : (Highlighter.ofGrammar emptied).paintLine 1 ['x'] (.start 0 ["s"]) = _ := Highlighter.scan_of_done hrest
  rw [Highlighter.tokenize_eq, lines_text]
  show ((Highlighter.ofGrammar emptied).paintLines 1 (.start 0 ["s"]) _).map _ = _
  rw [Highlighter.paintLines_cons_of_ok hpaint]
  rfl

/-- A disabled rule starts, and is seen. -/
theorem disabled_starts : compile .backtracking (source { piece "x" "one" with disabled := true }) = .ok grammar ∧
    1 ∈ grammar.candidatesIn 0 ∧ compile .backtracking (source .empty) = .ok emptied ∧
    (Highlighter.ofGrammar grammar).tokenize "x" true ≠ (Highlighter.ofGrammar emptied).tokenize "x" true := by
  refine ⟨compile_source, by decide, compile_empty, ?_⟩
  rw [tokenize_grammar, tokenize_emptied]
  intro heq
  simp at heq

end Unasked

end Grammar

end Highlight
