import Highlight.Highlighter.Load
import Highlight.Proofs.Lines
import Highlight.Proofs.Numbering
import Highlight.Proofs.Passages
import Mathlib.Data.List.Basic

/-!
# Captures without end

A passage may lead back to itself: where a capture is as long as its match, the rule
that it is tokenized by may find the same match again. Then no depth is enough. If no
passage of a text leads to one that leads back to itself, the depth that lines are
tokenized with is enough, since a chain of passages without return is no longer than
there are rules for each position.
-/

namespace Highlight

namespace Highlighter

open Relation (ReflTransGen TransGen)

variable (h : Highlighter) (line : Nat)

def verdict (depth : Nat) (T : Passage) : Option TokenizeError :=
  Results.fault? (h.scanWithin line depth T.text T.start (.start T.rule []) (.blank 0))

def ownFault (T : Passage) : Option TokenizeError :=
  Results.fault? (h.scan line .mute T.text T.start (.start T.rule []) (.blank 0))

def passagesIn (T : Passage) : List Passage :=
  h.passages line T.text T.start (.start T.rule [])

def Settles (T : Passage) : Prop :=
  ∃ depth, h.verdict line depth T = none

def ComesUp (ps : List Passage) (T : Passage) : Prop :=
  ∃ before after, ps = before ++ T :: after ∧ ∀ U ∈ before, h.Settles line U

/-- Tokenizing one passage, another comes up. -/
def Leads (T U : Passage) : Prop :=
  h.ComesUp line (h.passagesIn line T) U

def Loops (T : Passage) : Prop :=
  ∃ U, ReflTransGen (h.Leads line) T U ∧ TransGen (h.Leads line) U U

variable {h line}

/-! ## Verdicts -/

theorem fault?_scan {again : Retokenize} {v : Passage → Option TokenizeError} (ha : again.Answers v)
    (T : Passage) (scopes : List String) (p : Painting) :
    Results.fault? (h.scan line again T.text T.start (.start T.rule scopes) p) =
      ((h.passagesIn line T).findSome? v).or (h.ownFault line T) := by
  have := congrArg Results.fault? (scan_bare h line T.text ha T.start
    (s := .start T.rule scopes) (t := .start T.rule []) (u := .start T.rule []) rfl rfl p (.blank 0))
  rw [Results.fault?_map, Results.fault?_after, Results.fault?_map] at this
  exact this

theorem answers_scanWithin : ∀ depth, (h.scanWithin line depth).Answers (h.verdict line depth)
  | 0 => fun _ _ _ _ _ => rfl
  | depth + 1 => by
    intro text start rule scopes p
    have ha := answers_scanWithin depth
    rw [verdict, scanWithin, scanWithin, Results.fault?_map, Results.fault?_map,
      fault?_scan ha ⟨text, start, rule⟩ scopes p, fault?_scan ha ⟨text, start, rule⟩ [] (.blank 0)]

theorem verdict_succ (depth : Nat) (T : Passage) :
    h.verdict line (depth + 1) T =
      ((h.passagesIn line T).findSome? (h.verdict line depth)).or (h.ownFault line T) := by
  rw [verdict, scanWithin, Results.fault?_map, fault?_scan (answers_scanWithin depth) T]

theorem ownFault_ne_endless (T : Passage) (n : Nat) : h.ownFault line T ≠ some (.endless n) :=
  fun he => scan_mute_ne_endless (Results.fault?_eq_some.mp he)

/-- If `v` says `e` wherever it does not say what `w` says, so it does of a whole list. -/
theorem findSome?_lax {v w : Passage → Option TokenizeError} {e : TokenizeError} :
    ∀ (ps : List Passage), (∀ T ∈ ps, v T = some e ∨ v T = w T) →
      ps.findSome? v = some e ∨ ps.findSome? v = ps.findSome? w
  | [], _ => .inr rfl
  | T :: ps, hps => by
    rw [List.findSome?_cons, List.findSome?_cons]
    rcases hps T (List.mem_cons_self ..) with hT | hT
    · rw [hT]
      exact .inl rfl
    · rw [hT]
      cases w T with
      | some d => exact .inr rfl
      | none => exact findSome?_lax ps fun U hU => hps U (List.mem_cons_of_mem T hU)

theorem verdict_stable : ∀ (depth : Nat) (T : Passage),
    h.verdict line depth T = some (.endless line) ∨ h.verdict line depth T = h.verdict line (depth + 1) T
  | 0, _ => .inl rfl
  | depth + 1, T => by
    rw [verdict_succ, verdict_succ (depth + 1)]
    rcases findSome?_lax (h.passagesIn line T) fun U _ => verdict_stable depth U with hp | hp
    · rw [hp]
      exact .inl rfl
    · rw [hp]
      exact .inr rfl

variable (h line) in
theorem verdict_stable_add (depth : Nat) (T : Passage) : ∀ more,
    h.verdict line depth T = some (.endless line) ∨ h.verdict line depth T = h.verdict line (depth + more) T
  | 0 => .inr rfl
  | more + 1 => by
    rcases verdict_stable_add depth T more with he | he
    · exact .inl he
    · rcases verdict_stable (depth + more) T with hm | hm
      · exact .inl (he.trans hm)
      · exact .inr (he.trans hm)

theorem Settles.verdict {T : Passage} (hT : h.Settles line T) (depth : Nat) :
    h.verdict line depth T = some (.endless line) ∨ h.verdict line depth T = none := by
  obtain ⟨enough, hT⟩ := hT
  rcases Nat.le_total depth enough with hle | hle
  · have := verdict_stable_add h line depth T (enough - depth)
    rw [Nat.add_sub_cancel' hle, hT] at this
    exact this
  · have := verdict_stable_add h line enough T (depth - enough)
    rw [Nat.add_sub_cancel' hle, hT] at this
    rcases this with he | he
    · cases he
    · exact .inr he.symm

/-! ## Loops are without end -/

theorem findSome?_of_comesUp {ps : List Passage} {T : Passage} (hT : h.ComesUp line ps T) {depth : Nat}
    (he : h.verdict line depth T = some (.endless line)) :
    ps.findSome? (h.verdict line depth) = some (.endless line) := by
  obtain ⟨before, after, rfl, hb⟩ := hT
  rw [List.findSome?_append, List.findSome?_cons, he]
  have hlax := findSome?_lax (w := fun _ => none) before fun U hU => (hb U hU).verdict depth
  rcases hlax with hb | hb
  · rw [hb]
    rfl
  · rw [hb, List.findSome?_eq_none_iff.mpr fun _ _ => rfl]
    rfl

theorem Loops.step {T : Passage} (hT : h.Loops line T) : ∃ U, h.Leads line T U ∧ h.Loops line U := by
  obtain ⟨U, hTU, hU⟩ := hT
  rcases hTU.cases_head with rfl | ⟨V, hTV, hVU⟩
  · obtain ⟨V, hTV, hVT⟩ := TransGen.head'_iff.mp hU
    exact ⟨V, hTV, T, hVT, hU⟩
  · exact ⟨V, hTV, U, hVU, hU⟩

theorem Loops.verdict : ∀ {depth : Nat} {T : Passage}, h.Loops line T →
    h.verdict line depth T = some (.endless line)
  | 0, _, _ => rfl
  | depth + 1, T, hT => by
    obtain ⟨U, hTU, hU⟩ := hT.step
    rw [verdict_succ, findSome?_of_comesUp hTU hU.verdict]
    rfl

/-! ## Without loops there is an end -/

theorem passagesIn_of_size_le {T : Passage} (hr : h.grammar.rules.size ≤ T.rule) : h.passagesIn line T = [] :=
  passages_of_size_le hr

theorem comesUp_of_findSome? {ps : List Passage} {depth : Nat} {e : TokenizeError}
    (he : ps.findSome? (h.verdict line depth) = some e) :
    ∃ T, h.ComesUp line ps T ∧ T ∈ ps ∧ h.verdict line depth T = some e := by
  obtain ⟨before, T, after, rfl, hT, hb⟩ := List.findSome?_eq_some_iff.mp he
  refine ⟨T, ⟨before, after, rfl, ?_⟩, by simp, hT⟩
  intro U hU
  exact ⟨depth, hb U hU⟩

theorem exists_leads_of_verdict {depth : Nat} {T : Passage}
    (he : h.verdict line (depth + 1) T = some (.endless line)) :
    ∃ U, h.Leads line T U ∧ U ∈ h.passagesIn line T ∧ h.verdict line depth U = some (.endless line) := by
  rw [verdict_succ, Option.or_eq_some_iff] at he
  rcases he with he | ⟨_, he⟩
  · exact comesUp_of_findSome? he
  · exact absurd he (ownFault_ne_endless T line)

/-- The seen rules are those that the passages before had at the same place. With each
passage either its place shrinks or a rule is seen that was not before. -/
theorem loops_of_verdict : ∀ {depth : Nat} {T : Passage} (seen : List Nat),
    (∀ r ∈ seen, TransGen (h.Leads line) ⟨T.text, T.start, r⟩ T) →
    (T.text.size - T.start) * (h.grammar.rules.size + 1) + unseen h.grammar.rules.size seen < depth →
    h.verdict line depth T = some (.endless line) → h.Loops line T
  | 0, _, _, _, hd, _ => by omega
  | depth + 1, T, seen, hseen, hd, he => by
    obtain ⟨U, hTU, hU, he⟩ := exists_leads_of_verdict he
    by_cases hr : T.rule ∈ seen
    · -- the same rule at the same place
      exact ⟨T, .refl, hseen T.rule hr⟩
    · have hrule : T.rule < h.grammar.rules.size := by
        by_contra hge
        rw [passagesIn_of_size_le (Nat.le_of_not_lt hge)] at hU
        cases hU
      obtain ⟨htext, hsize, hstart, hlt⟩ := within_of_mem_passages hU
      have hloop : h.Loops line U := by
        by_cases hsame : U.text.size - U.start = T.text.size - T.start
        · -- the place is the same, and one more rule has been seen there
          have ht : U.text = T.text := by
            have : U.text.size = T.text.size := by omega
            rw [htext, this, Array.extract_size]
          have hs : U.start = T.start := by omega
          refine loops_of_verdict (T.rule :: seen) ?_ ?_ he
          · intro r hmem
            rw [ht, hs]
            rcases List.mem_cons.mp hmem with rfl | hmem
            · exact .single hTU
            · exact (hseen r hmem).tail hTU
          · have := unseen_cons_lt hrule hr
            rw [hsame]
            omega
        · -- the place has shrunk, and counts for more than all rules
          refine loops_of_verdict [] (fun r hmem => by cases hmem) ?_ he
          have hless : U.text.size - U.start + 1 ≤ T.text.size - T.start := by omega
          have := Nat.mul_le_mul_right (h.grammar.rules.size + 1) hless
          rw [Nat.add_mul] at this
          rw [unseen_nil]
          omega
      obtain ⟨V, hUV, hV⟩ := hloop
      exact ⟨V, .head hTU hUV, hV⟩

/-- Loops are just what no depth is enough for. -/
theorem loops_iff {T : Passage} : h.Loops line T ↔ ∀ depth, h.verdict line depth T = some (.endless line) := by
  constructor
  · exact fun hT _ => hT.verdict
  · intro hT
    exact loops_of_verdict [] (fun r hmem => by cases hmem) (Nat.lt_succ_self _) (hT _)

/-! ## Texts -/

variable (h) in
/-- The passage comes up on the line of the text that has this number. -/
def Meets (text : String) (n : Nat) (T : Passage) : Prop :=
  ∃ before line after s ps, Text.lines text = before ++ line :: after ∧ n = before.length + 1 ∧
    h.paintLines 1 (.start 0 [h.grammar.scopeName]) (before.map String.toList) = .ok (s, ps) ∧
    h.ComesUp n (h.linePassages n line.toList s) T

/-- Beyond the depth that captures can go to, all depths tell the same lines to be without end. -/
theorem paintLineWithin_eq_endless {depth : Nat} {l : List Char} {s : State}
    (hd : captureDepth h.grammar (l ++ [Text.lineEnd]).toArray.size ≤ depth) :
    h.paintLineWithin line depth l s = .error (.endless line) ↔
      ∃ T, h.ComesUp line (h.linePassages line l s) T ∧ h.Loops line T := by
  obtain ⟨own, hown, hfault⟩ := fault?_paintLineWithin l s (answers_scanWithin (h := h) depth)
  rw [← Results.fault?_eq_some, hfault, Option.or_eq_some_iff]
  constructor
  · rintro (he | ⟨_, he⟩)
    · obtain ⟨T, hT, hmem, he⟩ := comesUp_of_findSome? he
      obtain ⟨_, hsize, _, _⟩ := within_of_mem_linePassages hmem
      refine ⟨T, hT, loops_of_verdict [] (fun r hr => by cases hr) (Nat.lt_of_lt_of_le ?_ hd) he⟩
      have hless : T.text.size - T.start ≤ (l ++ [Text.lineEnd]).toArray.size := by omega
      have := Nat.mul_le_mul_right (h.grammar.rules.size + 1) hless
      unfold captureDepth
      rw [unseen_nil, Nat.add_mul]
      omega
    · exact absurd he (hown line)
  · rintro ⟨T, hT, hloop⟩
    exact .inl (findSome?_of_comesUp hT hloop.verdict)

theorem paintLine_eq_endless {l : List Char} {s : State} :
    h.paintLine line l s = .error (.endless line) ↔
      ∃ T, h.ComesUp line (h.linePassages line l s) T ∧ h.Loops line T := by
  rw [paintLine_eq]
  exact paintLineWithin_eq_endless (Nat.le_refl _)

theorem tokenize_of_meets {text : String} (explain : Bool) {n : Nat} {T : Passage} (hm : h.Meets text n T)
    (hT : h.Loops n T) : h.tokenize text explain = .error (.endless n) := by
  obtain ⟨before, line, after, s, ps, hl, rfl, hb, hc⟩ := hm
  rw [tokenize_eq, Results.map_eq_error, hl, List.map_append, List.map_cons, paintLines_eq_error]
  refine ⟨_, line.toList, _, s, ps, rfl, hb, ?_⟩
  rw [List.length_map, Nat.add_comm 1]
  exact paintLine_eq_endless.mpr ⟨T, hc, hT⟩

theorem meets_of_tokenize {text : String} {explain : Bool} {n : Nat}
    (he : h.tokenize text explain = .error (.endless n)) : ∃ T, h.Meets text n T ∧ h.Loops n T := by
  rw [tokenize_eq, Results.map_eq_error, paintLines_eq_error] at he
  obtain ⟨before, line, after, s, ps, hl, hb, he⟩ := he
  obtain ⟨before, rest, htext, rfl, hrest⟩ := List.map_eq_append_iff.mp hl
  obtain ⟨line, after, rfl, rfl, rfl⟩ := List.map_eq_cons_iff.mp hrest
  rw [List.length_map, Nat.add_comm 1] at he
  obtain rfl : n = before.length + 1 := line_of_paintLine_eq_error he
  obtain ⟨T, hT, hloop⟩ := paintLine_eq_endless.mp he
  exact ⟨T, ⟨before, line, after, s, ps, htext, rfl, hb, hT⟩, hloop⟩

/-- Tokenizing a text is without end just if the text meets a passage that leads to one
which leads back to itself: no depth of captures within captures is enough for those. -/
theorem tokenize_endless_iff (h : Highlighter) (text : String) (explain : Bool) (n : Nat) :
    (h.tokenize text explain = .error (.endless n) ↔ ∃ T, h.Meets text n T ∧ h.Loops n T) ∧
      ∀ T, h.Loops n T ↔ ∀ depth scopes p,
        h.scanWithin n depth T.text T.start (.start T.rule scopes) p = .error (.endless n) := by
  refine ⟨⟨meets_of_tokenize, ?_⟩, ?_⟩
  · rintro ⟨T, hm, hT⟩
    exact tokenize_of_meets explain hm hT
  · intro T
    have hv (depth : Nat) (scopes : List String) (p : Painting) :
        h.scanWithin n depth T.text T.start (.start T.rule scopes) p = .error (.endless n) ↔
          h.verdict n depth T = some (.endless n) := by
      rw [← Results.fault?_eq_some, answers_scanWithin depth]
    rw [loops_iff]
    constructor
    · intro hT depth scopes p
      exact (hv depth scopes p).mpr (hT depth)
    · intro hT depth
      exact (hv depth [] (.blank 0)).mp (hT depth [] (.blank 0))

end Highlighter

/-! ## A grammar with a loop -/

namespace SelfCapture

open Grammar (GrammarSource RuleSource)

def source : GrammarSource where
  name := none
  scopeName := some "s"
  patterns := [{ RuleSource.empty with
    pattern := some "a"
    captures := [("0", { RuleSource.empty with patterns := [{ RuleSource.empty with reference := some "$self" }] })] }]
  repository := []

def grammar : Grammar where
  name := none
  scopeName := "s"
  rules := #[.container [1], .piece none ⟨"a", .text ['a'], 0⟩ [⟨0, none, some 2⟩], .container [0]]
  candidates := #[[1], [], [1]]
  candidates_eq := by cbv

theorem compile_source : Grammar.compile .backtracking source = .ok grammar := by cbv

def again : Passage :=
  ⟨#['a'], 0, 2⟩

theorem leads_again : (Highlighter.ofGrammar grammar).Leads 1 again again := by
  obtain ⟨rest, hrest⟩ := Highlighter.passages_eq_append (.ofGrammar grammar) 1
    again.text again.start (.start again.rule [])
  have hnext : (Highlighter.ofGrammar grammar).nextPassages again.text again.start (.start again.rule []) = [again] := by
    cbv
  refine ⟨[], rest, ?_, fun _ hU => by cases hU⟩
  unfold Highlighter.passagesIn
  rw [hrest, hnext]
  rfl

theorem meets_again : (Highlighter.ofGrammar grammar).Meets "a" 1 again := by
  obtain ⟨rest, hrest⟩ := Highlighter.passages_eq_append (.ofGrammar grammar) 1
    #['a', '\n'] 0 (.start 0 ["s"])
  have hnext : (Highlighter.ofGrammar grammar).nextPassages #['a', '\n'] 0 (.start 0 ["s"]) = [again] := by
    cbv
  have hlines : Text.lines "a" = [] ++ "a" :: [] := by decide
  refine ⟨[], "a", [], .start 0 ["s"], [], hlines, rfl, rfl, [], rest, ?_, fun _ hU => by cases hU⟩
  show (Highlighter.ofGrammar grammar).passages 1 #['a', '\n'] 0 (.start 0 ["s"]) = _
  rw [hrest, hnext]
  rfl

/-- The grammar compiles, and a text of one character has no end. -/
theorem tokenize_selfCapture : ∃ g, Grammar.compile .backtracking source = .ok g ∧
    (Highlighter.ofGrammar g).tokenize "a" true = .error (.endless 1) := by
  refine ⟨grammar, compile_source, Highlighter.tokenize_of_meets true meets_again ?_⟩
  exact ⟨again, .refl, .single leads_again⟩

end SelfCapture

end Highlight
