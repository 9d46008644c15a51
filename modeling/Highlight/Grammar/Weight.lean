import Highlight.Grammar.Layout

/-!
# The weight of a node

A node outweighs each node it leads on to, `weight_lt_of_visit`: a named rule is
no longer in sight from within itself, and any other rule is a part. So laying
out a grammar comes to an end.
-/

namespace Highlight.Grammar

noncomputable def Repository.weightOf : List (String × Option RuleSource) → Nat
  | [] => 0
  | (_, none) :: es => weightOf es
  | (_, some s) :: es => sizeOf s + weightOf es

noncomputable def Repository.weight (r : Repository) : Nat :=
  weightOf r.entries

noncomputable def Body.weight : Body → Nat
  | .group ps => sizeOf ps
  | .rule s => sizeOf s

noncomputable def sightWeight : List Repository → Nat
  | [] => 0
  | r :: outer => r.weight + sightWeight outer

noncomputable def Node.weight (n : Node) : Nat :=
  n.body.weight + sightWeight n.sight

theorem Repository.weightOf_some (entries : List (String × RuleSource)) :
    weightOf (entries.map fun e => (e.1, some e.2)) ≤ sizeOf entries := by
  induction entries with
  | nil => simp [weightOf]
  | cons e es ih =>
    obtain ⟨name, s⟩ := e
    simp only [List.map_cons, weightOf, List.cons.sizeOf_spec, Prod.mk.sizeOf_spec]
    omega

theorem Repository.weight_of (address : Address) (entries : List (String × RuleSource)) :
    (Repository.of address entries).weight ≤ sizeOf entries := by
  unfold Repository.of
  split <;> apply weightOf_some

theorem Repository.weightOf_without (name : String) (es : List (String × Option RuleSource)) :
    weightOf (es.map fun e => if e.1 = name then (e.1, none) else e) ≤ weightOf es := by
  fun_induction weightOf es <;> grind [weightOf]

theorem Repository.weight_without {r : Repository} {name : String} {s : RuleSource}
    (h : r.entries.lookup name = some (some s)) :
    (r.without name).weight + sizeOf s ≤ r.weight := by
  obtain ⟨owner, path, entries⟩ := r
  simp only [weight, without] at h ⊢
  induction entries with
  | nil => simp at h
  | cons e es ih =>
    obtain ⟨n, s'⟩ := e
    have := weightOf_without name es
    rw [List.lookup_cons] at h
    split at h <;> cases s' <;> grind [weightOf]

theorem resolve_weight {name : String} {sight : List Repository} {a : Address} {m : Node}
    (h : resolve name sight = some ⟨a, some m⟩) : m.weight ≤ sightWeight sight + 2 := by
  fun_induction resolve name sight with
  | case1 => simp at h
  | case2 r outer hr ih =>
    have := ih h
    simp only [sightWeight] at this ⊢
    omega
  | case3 r outer source? hr =>
    cases source? with
    | none => simp at h
    | some source =>
      have hw := Repository.weight_without hr
      simp only [Option.map_some, Option.some.injEq, Target.mk.injEq] at h
      obtain ⟨_, rfl⟩ := h
      simp only [Node.weight, sightWeight]
      split <;> simp [Body.weight] <;> omega

theorem referred?_weight {sight : List Repository} {reference : String} {a : Address} {m : Node}
    (h : referred? sight reference = some ⟨a, some m⟩) : m.weight ≤ sightWeight sight + 2 := by
  unfold referred? at h
  split at h
  · simp at h
  · split at h
    · exact resolve_weight h
    · simp at h

theorem target?_weight {owner : Address} {sight : List Repository} {label : String} {index : Nat}
    {p : RuleSource} {a : Address} {m : Node}
    (h : target? owner sight label index p = some ⟨a, some m⟩) :
    m.weight ≤ sightWeight sight + sizeOf p := by
  have hp : 2 ≤ sizeOf p := by
    obtain ⟨⟩ := p
    rename_i last disabled
    cases last
    all_goals simp only [RuleSource.mk.sizeOf_spec, Bool.false.sizeOf_spec, Bool.true.sizeOf_spec]
    all_goals omega
  unfold target? at h
  split at h
  · simp at h
  · split at h
    · have := referred?_weight h
      omega
    · simp only [Option.some.injEq, Target.mk.injEq] at h
      obtain ⟨_, rfl⟩ := h
      simp only [Node.weight, Body.weight]
      omega

theorem targets_weight {owner : Address} {sight : List Repository} {label : String}
    {ps : List RuleSource} {a : Address} {m : Node}
    (h : ⟨a, some m⟩ ∈ targets owner sight label ps) : m.weight < sightWeight sight + sizeOf ps := by
  obtain ⟨⟨p, index⟩, hp, ht⟩ := List.mem_filterMap.1 h
  have := target?_weight ht
  have : sizeOf p < sizeOf ps := List.sizeOf_lt_of_mem (List.fst_mem_of_mem_zipIdx hp)
  omega

theorem captureTarget?_weight {owner : Address} {sight : List Repository} {label : String}
    {use : CaptureUse} {key : String} {c : RuleSource} {x : Capture Address} {m : Node}
    (h : captureTarget? owner sight label use key c = some (x, some m)) :
    m.weight < sightWeight sight + sizeOf c := by
  obtain ⟨group, _, h⟩ := Option.map_eq_some_iff.1 h
  split at h
  · simp at h
  · simp only [Prod.mk.injEq, Option.some.injEq] at h
    obtain ⟨_, rfl⟩ := h
    cases c
    simp only [Node.weight, Body.weight, RuleSource.mk.sizeOf_spec]
    omega

theorem RuleSource.sizeOf_patterns (s : RuleSource) :
    sizeOf s.repository + sizeOf s.patterns ≤ sizeOf s := by
  cases s
  simp only [RuleSource.mk.sizeOf_spec]
  omega

theorem RuleSource.sizeOf_capturesFor (s : RuleSource) (use : CaptureUse) :
    sizeOf s.repository + sizeOf (s.capturesFor use) ≤ sizeOf s := by
  cases s
  cases use <;> simp only [capturesFor, RuleSource.mk.sizeOf_spec] <;> split <;> omega

namespace Node

theorem of_mem_patternSteps {n m : Node} {ps : List RuleSource} (h : .visit m ∈ n.patternSteps ps) :
    m.weight < sightWeight n.inside + sizeOf ps := by
  simp only [patternSteps, visits, List.mem_filterMap, List.mem_map, Option.map_eq_some_iff] at h
  obtain ⟨_, ⟨⟨a, _⟩, ht, rfl⟩, _, rfl, hm⟩ := h
  cases hm
  exact targets_weight ht

theorem of_mem_captureSteps {n m : Node} {s : RuleSource} {use : CaptureUse}
    (h : .visit m ∈ n.captureSteps s use) :
    m.weight < sightWeight n.inside + sizeOf (s.capturesFor use) := by
  simp only [captureSteps, visits, List.mem_filterMap, List.mem_map, Option.map_eq_some_iff,
    captureTargets] at h
  obtain ⟨_, ⟨⟨a, _⟩, ⟨⟨key, c⟩, hc, ht⟩, rfl⟩, _, rfl, hm⟩ := h
  cases hm
  have : m.weight < sightWeight n.inside + sizeOf c := captureTarget?_weight ht
  have := List.sizeOf_lt_of_mem hc
  simp only [Prod.mk.sizeOf_spec] at this
  omega

theorem sightWeight_inside_group {n : Node} {ps : List RuleSource} (h : n.body = .group ps) :
    sightWeight n.inside + sizeOf ps = n.weight := by
  simp [inside, weight, h, Body.weight, Nat.add_comm]

theorem sightWeight_inside_rule {n : Node} {s : RuleSource} (h : n.body = .rule s) :
    sightWeight n.inside + sizeOf s ≤ n.weight + sizeOf s.repository := by
  have := Repository.weight_of n.address s.repository
  simp only [inside, weight, h, Body.weight]
  split
  · omega
  · rw [sightWeight]
    omega

theorem weight_lt_of_visit {n m : Node} (h : .visit m ∈ n.steps) : m.weight < n.weight := by
  unfold steps at h
  split at h
  · rename_i ps hb
    have := of_mem_patternSteps h
    have := sightWeight_inside_group hb
    omega
  · rename_i s hb
    have hi := sightWeight_inside_rule hb
    have := s.sizeOf_patterns
    have hc := s.sizeOf_capturesFor
    split at h
    · have := of_mem_patternSteps h
      omega
    · simp only [List.mem_cons, reduceCtorEq, false_or] at h
      have := of_mem_captureSteps h
      have := hc .piece
      omega
    · rename_i lasting _
      have := hc .opening
      have := hc (.atEnd lasting)
      simp only [List.cons_append, List.mem_cons, List.mem_append, List.mem_map, reduceCtorEq,
        false_or, and_false, exists_false, or_false] at h
      rcases h with (h | h) | h
      · have := of_mem_captureSteps h
        omega
      · have := of_mem_captureSteps h
        omega
      · have := of_mem_patternSteps h
        omega

end Node

end Highlight.Grammar
