import Highlight.Proofs.Results
import Highlight.Proofs.Sight

/-!
# Compiled grammars

A compiled grammar has a rule for each node of the draft, with the places of the nodes for
their addresses.
-/

namespace Highlight

namespace Rule

variable {ι π ρ ε : Type} {parse : π → Except ε ρ}

def isContainer : Rule ι π → Bool
  | container _ => true
  | _ => false

theorem isContainer_iff {r : Rule ι π} : r.isContainer = true ↔ ∃ ps, r = container ps := by
  cases r <;> simp [isContainer]

theorem isContainer_renumber {κ : Type} (f : ι → κ) (r : Rule ι π) : (r.renumber f).isContainer = r.isContainer := by
  cases r <;> rfl

theorem captures_renumber {κ : Type} (f : ι → κ) (r : Rule ι π) :
    (r.renumber f).captures = r.captures.map (·.renumber f) := by
  cases r <;> simp [renumber, captures]

theorem read_container {ps : List ι} {r : Rule ι ρ} : (container ps : Rule ι π).read parse = .ok r ↔ r = container ps := by
  rw [read, Except.ok.injEq, eq_comm]

theorem read_piece {name : Option String} {p : π} {cs : List (Capture ι)} {r : Rule ι ρ} :
    (piece name p cs).read parse = .ok r ↔ ∃ q, parse p = .ok q ∧ r = piece name q cs := by
  rw [read, Results.map_eq_ok]
  simp only [eq_comm]

theorem read_region {r : Region ι π} {r' : Rule ι ρ} :
    (region r).read parse = .ok r' ↔ ∃ opening closing, parse r.opening = .ok opening ∧
      r.closing.read parse = .ok closing ∧ r' = region {
        name := r.name
        contentName := r.contentName
        opening := opening
        openingCaptures := r.openingCaptures
        closing := closing
        closingCaptures := r.closingCaptures
        patterns := r.patterns
        lasting := r.lasting } := by
  unfold read
  cases ho : parse r.opening with
  | error e => simp [ho]
  | ok opening =>
    cases hc : r.closing.read parse with
    | error e => simp [ho, hc]
    | ok closing => simp [ho, hc, eq_comm]

/-- Reading the patterns of a rule changes nothing else. -/
theorem of_read {r : Rule ι π} {r' : Rule ι ρ} (h : r.read parse = .ok r') :
    r'.isContainer = r.isContainer ∧ r'.patterns = r.patterns ∧ r'.captures = r.captures := by
  cases r with
  | container ps =>
    obtain rfl := read_container.mp h
    exact ⟨rfl, rfl, rfl⟩
  | piece name p cs =>
    obtain ⟨q, _, rfl⟩ := read_piece.mp h
    exact ⟨rfl, rfl, rfl⟩
  | region r =>
    obtain ⟨opening, closing, _, _, rfl⟩ := read_region.mp h
    exact ⟨rfl, rfl, rfl⟩

theorem keys_of_read {r : Rule ι π} {r' : Rule ι ρ} (h : r.read parse = .ok r') : r'.keys = r.keys := by
  obtain ⟨_, hpatterns, hcaptures⟩ := of_read h
  rw [keys, keys, hpatterns, hcaptures]

theorem read_renumber {κ : Type} (f : ι → κ) (r : Rule ι π) :
    (r.renumber f).read parse = (r.read parse).map (·.renumber f) := by
  cases r with
  | container ps => rfl
  | piece name p cs =>
    rw [renumber, read, read]
    cases parse p with
    | error e => rfl
    | ok q => rfl
  | region r =>
    rw [renumber, read, read]
    cases parse r.opening with
    | error e => rfl
    | ok opening =>
      cases r.closing.read parse with
      | error e => rfl
      | ok closing => rfl

def sources : Rule ι π → List π
  | container _ => []
  | piece _ p _ => [p]
  | region r => r.opening :: r.closing.fixed?.toList

theorem sources_renumber {κ : Type} (f : ι → κ) (r : Rule ι π) : (r.renumber f).sources = r.sources := by
  cases r <;> rfl

/-- A rule can be read if its patterns can. -/
theorem exists_read_iff {r : Rule ι π} :
    (∃ r', r.read parse = .ok r') ↔ ∀ source ∈ r.sources, ∃ p, parse source = .ok p := by
  cases r with
  | container ps => simp [read, sources]
  | piece name p cs => simp [read_piece, sources]
  | region r =>
    obtain ⟨name, contentName, opening, openingCaptures, closing, closingCaptures, patterns, lasting⟩ := r
    have hclosing : (∃ c, closing.read parse = .ok c) ↔ ∀ source ∈ closing.fixed?.toList, ∃ p, parse source = .ok p := by
      cases closing with
      | fixed p => simp [Closing.read, Closing.fixed?, Results.map_eq_ok]
      | backReferenced source => simp [Closing.read, Closing.fixed?]
    simp only [read_region, sources, List.forall_mem_cons, ← hclosing]
    constructor
    · rintro ⟨_, o, c, ho, hc, _⟩
      exact ⟨⟨o, ho⟩, c, hc⟩
    · rintro ⟨⟨o, ho⟩, c, hc⟩
      exact ⟨_, o, c, ho, hc, rfl⟩

end Rule

namespace Grammar

variable {engine : Engine} {g : GrammarSource} {G : Grammar}

/-- The rules of a compiled grammar are those of the nodes of its draft, in order. -/
theorem compile_eq_ok (h : compile engine g = .ok G) : g.scopeName = some G.scopeName ∧
    List.Forall₂ (fun (n : Node) r => (n.rule.renumber (g.draft G.scopeName).addresses.idxOf).read
      (readPattern engine G.scopeName) = .ok r) (g.draft G.scopeName).nodes G.rules.toList := by
  unfold compile at h
  split at h
  · cases h
  · rename_i scopeName hname
    obtain ⟨_, _, h⟩ := Results.bind_eq_ok.mp h
    obtain ⟨rules, hrules, h⟩ := Results.bind_eq_ok.mp h
    cases h
    exact ⟨hname, List.forall₂_map_left_iff.mp (Results.forall₂_of_mapM hrules)⟩

theorem name_of_compile (h : compile engine g = .ok G) : G.name = g.name := by
  unfold compile at h
  split at h
  · cases h
  · obtain ⟨_, _, h⟩ := Results.bind_eq_ok.mp h
    obtain ⟨_, _, h⟩ := Results.bind_eq_ok.mp h
    cases h
    rfl

theorem size_rules (h : compile engine g = .ok G) : G.rules.size = (g.draft G.scopeName).nodes.length := by
  rw [(compile_eq_ok h).2.length_eq, Array.length_toList]

theorem getElem?_rules (h : compile engine g = .ok G) {i : Nat} {n : Node} (hn : (g.draft G.scopeName).nodes[i]? = some n) :
    ∃ r, G.rules[i]? = some r ∧
      (n.rule.renumber (g.draft G.scopeName).addresses.idxOf).read (readPattern engine G.scopeName) = .ok r := by
  obtain ⟨hi, hget⟩ := List.getElem?_eq_some_iff.mp hn
  have hj : i < G.rules.toList.length := (compile_eq_ok h).2.length_eq ▸ hi
  have := (compile_eq_ok h).2.get hi hj
  simp only [List.get_eq_getElem, hget] at this
  exact ⟨_, by rw [← Array.getElem?_toList, List.getElem?_eq_getElem hj], this⟩

theorem exists_node_of_getElem? (h : compile engine g = .ok G) {i : Nat} {r : Rule Nat Pattern} (hr : G.rules[i]? = some r) :
    ∃ n, (g.draft G.scopeName).nodes[i]? = some n ∧
      (n.rule.renumber (g.draft G.scopeName).addresses.idxOf).read (readPattern engine G.scopeName) = .ok r := by
  have hi : i < (g.draft G.scopeName).nodes.length := by
    rw [← size_rules h]
    exact (Array.getElem?_eq_some_iff.mp hr).1
  obtain ⟨r', hr', hread⟩ := getElem?_rules h (List.getElem?_eq_getElem hi)
  rw [hr, Option.some.injEq] at hr'
  exact ⟨_, List.getElem?_eq_getElem hi, hr' ▸ hread⟩

namespace GrammarSource

variable {scopeName : String}

theorem getElem?_idxOf {a : Address} (ha : a ∈ (g.draft scopeName).addresses) :
    ∃ n, (g.draft scopeName).nodes[(g.draft scopeName).addresses.idxOf a]? = some n ∧ n.address = a := by
  have h : (g.draft scopeName).addresses[(g.draft scopeName).addresses.idxOf a]? = some a := by
    rw [List.getElem?_eq_getElem (List.idxOf_lt_length_of_mem ha), List.getElem_idxOf]
  rw [Draft.addresses, List.getElem?_map, Option.map_eq_some_iff] at h
  exact h

end GrammarSource

theorem candidatesIn_eq {id : Nat} {r : Rule Nat Pattern} (hr : G.rules[id]? = some r) :
    G.candidatesIn id = expand G.rules r.patterns [] := by
  rw [candidatesIn, G.candidates_eq, Array.getElem?_map, hr]
  rfl

/-! ## Containers -/

/-- The root and the rules for the texts of captures are containers. -/
structure Sound (G : Grammar) : Prop where
  root : ∃ ps, G.rules[0]? = some (.container ps)
  again : ∀ (i : Nat) (r : Rule Nat Pattern) (c : Capture Nat) (k : Nat), G.rules[i]? = some r → c ∈ r.captures →
    c.patterns = some k → ∃ ps, G.rules[k]? = some (.container ps)

theorem Node.isContainer_rule {n : Node} {ps : List RuleSource} (h : n.body = .group ps) :
    n.rule.isContainer = true := by
  unfold rule
  rw [h]
  rfl

theorem Node.address_of_capture {n : Node} {c : Capture Address} {a : Address} (hc : c ∈ n.rule.captures)
    (ha : c.patterns = some a) : ∃ use key, a = .inner n.address (.capture use key) := by
  have hcaptures (s : RuleSource) (use : CaptureUse) (hc : c ∈ n.captures s use) :
      ∃ use key, a = .inner n.address (.capture use key) := by
    obtain ⟨m, hm⟩ := mem_captures.mp hc
    obtain ⟨⟨key, source⟩, _, h⟩ := List.mem_filterMap.mp hm
    obtain ⟨group, _, h⟩ := Option.map_eq_some_iff.mp h
    split at h
    · cases h
      cases ha
    · cases h
      cases ha
      exact ⟨use, key, rfl⟩
  unfold rule at hc
  split at hc
  · cases hc
  · split at hc
    · cases hc
    · exact hcaptures _ _ hc
    · rcases List.mem_append.mp hc with hc | hc
      · exact hcaptures _ _ hc
      · exact hcaptures _ _ hc

theorem GrammarSource.body_of_capture {p : Place} {o : Address} {use : CaptureUse} {key : String} {site : Site}
    (hs : g.site? p = some site) (ha : p.address = .inner o (.capture use key)) : ∃ ps, site.body = .group ps := by
  cases p with
  | top => cases ha
  | named owner name =>
    simp only [Place.address, Repository.of] at ha
    split at ha
    · cases ha
    · cases ha
  | inner owner slot =>
    cases ha
    obtain ⟨outer, _, h⟩ := Option.bind_eq_some_iff.mp hs
    unfold Site.capture? at h
    split at h
    · cases h
    · obtain ⟨e, _, rfl⟩ := Option.map_eq_some_iff.mp h
      exact ⟨_, rfl⟩

theorem sound_of_compile (h : compile engine g = .ok G) : G.Sound where
  root := by
    have hroot : (g.draft G.scopeName).nodes[0]? = some (rootNode g G.scopeName) := by
      rw [← List.head?_eq_getElem?]
      exact GrammarSource.head?_draft
    obtain ⟨r, hr, hread⟩ := getElem?_rules h hroot
    rw [Rule.read_container.mp hread] at hr
    exact ⟨_, hr⟩
  again i r c k hr hc hk := by
    obtain ⟨n, hn, hread⟩ := exists_node_of_getElem? h hr
    have hmem := List.mem_of_getElem? hn
    rw [(Rule.of_read hread).2.2] at hc
    obtain ⟨d, hd, a, hda, rfl, hkey⟩ : ∃ d ∈ n.rule.captures, ∃ a, d.patterns = some a ∧
        (g.draft G.scopeName).addresses.idxOf a = k ∧ a ∈ n.rule.keys := by
      rw [Rule.captures_renumber] at hc
      obtain ⟨d, hd, rfl⟩ := List.mem_map.mp hc
      obtain ⟨a, hda, hak⟩ := Option.map_eq_some_iff.mp hk
      exact ⟨d, hd, a, hda, hak, List.mem_append_right _ (List.mem_filterMap.mpr ⟨d, hd, hda⟩)⟩
    obtain ⟨use, key, rfl⟩ := Node.address_of_capture hd hda
    obtain ⟨m, hm, ha⟩ := GrammarSource.getElem?_idxOf (GrammarSource.keys_of_mem_draft hmem hkey)
    obtain ⟨p, hfits⟩ := GrammarSource.fits_of_mem_draft (List.mem_of_getElem? hm)
    obtain ⟨site, hsite, hbody⟩ := hfits.site
    obtain ⟨ps, hps⟩ := GrammarSource.body_of_capture hsite (hfits.address.symm.trans ha)
    obtain ⟨r', hr', hread'⟩ := getElem?_rules h hm
    have hcontainer : r'.isContainer = true := by
      rw [(Rule.of_read hread').1, Rule.isContainer_renumber]
      exact Node.isContainer_rule (hbody.symm.trans hps)
    obtain ⟨ps, rfl⟩ := Rule.isContainer_iff.mp hcontainer
    exact ⟨ps, hr'⟩

end Grammar

end Highlight
