import Highlight.Proofs.Discipline
import Highlight.Proofs.Expansion
import Highlight.Proofs.InPlace

/-!
# Numbers that a grammar keeps

A compiled grammar refers to its rules by numbers: in their lists and captures, in the lists of
candidates, and for its root. All of these are numbers of rules, of the right kind for their
use. So no state that a run comes to has a number that says nothing, and each rule that is
looked for there can start.
-/

namespace Highlight

namespace Rule

variable {ι π : Type}

theorem exists_opening {r : Rule ι π} (h : ¬r.isContainer = true) : ∃ p, r.opening? = some p := by
  cases r with
  | container ps => exact absurd rfl h
  | piece name p captures => exact ⟨p, rfl⟩
  | region r => exact ⟨r.opening, rfl⟩

end Rule

theorem Choice.exists_ofRule? {id : Nat} {r : Rule Nat Pattern} {p : Pattern} (h : r.opening? = some p) :
    ∃ c, ofRule? id r = some (c, p) := by
  cases r with
  | container ps => cases h
  | piece name p captures =>
    cases h
    exact ⟨.piece name captures, rfl⟩
  | region r =>
    cases h
    exact ⟨.enter id r, rfl⟩

namespace Grammar

structure Closed (G : Grammar) : Prop where
  root : ∃ ps, G.rules[0]? = some (.container ps)
  keys : ∀ (i : Nat) (r : Rule Nat Pattern), G.rules[i]? = some r → ∀ k ∈ r.keys, k < G.rules.size
  again : ∀ (i : Nat) (r : Rule Nat Pattern) (c : Capture Nat) (k : Nat), G.rules[i]? = some r → c ∈ r.captures →
    c.patterns = some k → ∃ ps, G.rules[k]? = some (.container ps)
  sorted : ∀ (i : Nat) (r : Rule Nat Pattern), G.rules[i]? = some r → r.CapturesSorted
  lists : G.candidates.size = G.rules.size
  starts : ∀ (i : Nat) (ids : List Nat), G.candidates[i]? = some ids → ∀ id ∈ ids,
    ∃ r p, G.rules[id]? = some r ∧ r.opening? = some p

variable {engine : Engine} {g : GrammarSource} {G : Grammar}

theorem keys_lt_size (h : compile engine g = .ok G) {i : Nat} {r : Rule Nat Pattern} (hr : G.rules[i]? = some r) {k : Nat}
    (hk : k ∈ r.keys) : k < G.rules.size := by
  obtain ⟨n, hn, hread⟩ := exists_node_of_getElem? h hr
  rw [Rule.keys_of_read hread, Rule.keys_renumber] at hk
  obtain ⟨a, ha, rfl⟩ := List.mem_map.mp hk
  have hmem := GrammarSource.keys_of_mem_draft (List.mem_of_getElem? hn) ha
  have hlt := List.idxOf_lt_length_of_mem hmem
  rwa [size_rules h, ← List.length_map Node.address]

theorem exists_opening_of_mem {i : Nat} {id : Nat} (h : id ∈ G.candidatesIn i) :
    ∃ r p, G.rules[id]? = some r ∧ r.opening? = some p := by
  obtain ⟨r, hr, hnot⟩ := of_mem_candidatesIn h
  obtain ⟨p, hp⟩ := Rule.exists_opening hnot
  exact ⟨r, p, hr, hp⟩

theorem closed_of_compile (h : compile engine g = .ok G) : G.Closed where
  root := (sound_of_compile h).root
  keys _ _ hr _ hk := keys_lt_size h hr hk
  again := (sound_of_compile h).again
  sorted _ _ hr := capturesSorted_of_compile h hr
  lists := by rw [G.candidates_eq, Array.size_map]
  starts i ids hi id hid := by
    have hmem : id ∈ G.candidatesIn i := by
      unfold candidatesIn
      rwa [hi]
    exact exists_opening_of_mem hmem

theorem filled_of_compile (h : compile engine g = .ok G) : ∃ depth, ∀ d, depth ≤ d →
    ∃ a, compileWithin engine d g = .ok a ∧ a.rules = G.rules.toList.map some := by
  obtain ⟨depth, hdepth⟩ := exists_depth g
  refine ⟨depth, fun d hd => ?_⟩
  have hrules := hdepth d hd
  rw [h] at hrules
  exact Results.map_eq_ok.mp hrules

end Grammar

/-- All numbers in the state say something in the grammar, and all rules that may start can. -/
structure State.InGrammar (G : Grammar) (s : State) : Prop where
  rule : s.rule < G.rules.size
  list : s.rule < G.candidates.size
  base : ∃ ps, G.rules[s.base]? = some (.container ps)
  frames : ∀ f ∈ s.frames, G.rules[f.rule]? = some (.region f.region)
  starts : ∀ id ∈ G.candidatesIn s.rule, ∃ r p c, G.rules[id]? = some r ∧ r.opening? = some p ∧
    Choice.ofRule? id r = some (c, p)

theorem State.Lawful.inGrammar {G : Grammar} {s : State} (h : s.Lawful G) : s.InGrammar G := by
  have hrule : s.rule < G.rules.size := by
    unfold State.rule
    cases hf : s.frames with
    | nil =>
      obtain ⟨ps, hps⟩ := h.base
      exact (Array.getElem?_eq_some_iff.mp hps).1
    | cons f below => exact (Array.getElem?_eq_some_iff.mp (h.frames f (by simp [hf])).region).1
  refine ⟨hrule, ?_, h.base, fun f hf => (h.frames f hf).region, ?_⟩
  · rwa [G.candidates_eq, Array.size_map]
  · intro id hid
    obtain ⟨r, p, hr, hp⟩ := Grammar.exists_opening_of_mem hid
    obtain ⟨c, hc⟩ := Choice.exists_ofRule? hp
    exact ⟨r, p, c, hr, hp, hc⟩

namespace Grammar

/-- A compiled grammar has a rule in each slot and only numbers of rules, of which those that it
looks for can start; and so it is for all states that it comes to in a text. -/
theorem compile_closed (g : GrammarSource) (G : Grammar) (h : compile engine g = .ok G) :
    (∃ depth, ∀ d, depth ≤ d → ∃ a, compileWithin engine d g = .ok a ∧ a.rules = G.rules.toList.map some) ∧ G.Closed ∧
      ∀ (lines : List (List Char)) (pt : Point), Highlighter.Comes ⟨G, engine⟩ lines pt → pt.state.InGrammar G :=
  ⟨filled_of_compile h, closed_of_compile h, fun _ _ hpt =>
    (Highlighter.lawful_of_comes (h := ⟨G, engine⟩) (sound_of_compile h) hpt).inGrammar⟩

/-! ## A rule in itself -/

namespace Parens

def paren : RuleSource :=
  { RuleSource.empty with
    opening := some "a"
    closing := some "b"
    openingCaptures := [("0", { RuleSource.empty with patterns := [{ RuleSource.empty with reference := some "#paren" }] })]
    patterns := [{ RuleSource.empty with reference := some "#paren" }, { RuleSource.empty with reference := some "$self" }] }

def source : GrammarSource where
  name := none
  scopeName := some "s"
  patterns := [{ RuleSource.empty with reference := some "#paren" }]
  repository := [("paren", paren)]

def grammar : Grammar where
  name := none
  scopeName := "s"
  rules := #[.container [1], .region {
    name := none
    contentName := none
    opening := ⟨"a", .text ['a'], 0⟩
    openingCaptures := [⟨0, none, some 2⟩]
    closing := .fixed ⟨"b", .text ['b'], 0⟩
    closingCaptures := []
    patterns := [1, 0]
    lasting := .untilClosed false }, .container [1]]
  candidates := #[[1], [1], [1]]
  candidates_eq := by cbv

theorem compile_source : compile .backtracking source = .ok grammar := by cbv

end Parens

theorem compile_closed_parens : compile .backtracking Parens.source = .ok Parens.grammar ∧ Parens.grammar.Closed ∧
    (Highlighter.startPoint ⟨Parens.grammar, .backtracking⟩).state.InGrammar Parens.grammar := by
  obtain ⟨_, hclosed, hstate⟩ := compile_closed Parens.source Parens.grammar Parens.compile_source
  exact ⟨Parens.compile_source, hclosed, hstate [] _ .refl⟩

end Grammar

end Highlight
