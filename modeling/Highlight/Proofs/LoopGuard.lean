import Highlight.Proofs.Step

/-!
# The loop guard

A scan may take several turns at one position, since regions may be opened and closed by
matches of nothing. There it first leaves regions that were opened elsewhere and then opens
regions of rules that differ; a turn that would undo or repeat one of these gives the line up.
Each turn lowers a number, so there are no more turns than that number tells.
-/

namespace Highlight

structure Spot where
  position : Nat
  state : State
  painting : Painting

inductive Turns (R : Spot → Spot → Prop) : Nat → Spot → Spot → Prop
  | none {a : Spot} : Turns R 0 a a
  | more {n : Nat} {a b c : Spot} : R a b → Turns R n b c → Turns R (n + 1) a c

def Choice.Returns (s : State) (start : Nat) : Choice → Prop
  | leave f _ => f.enteredAt = some start
  | piece _ _ => True
  | enter id _ => id ∈ s.openedAt start

namespace Highlighter

variable (h : Highlighter) (line : Nat) (again : Retokenize) (text : Array Char)

def Goes (a b : Spot) : Prop :=
  h.step line again text a.position a.state a.painting = .ok (.next b.position b.state b.painting)

def Pops (a b : Spot) : Prop :=
  h.Goes line again text a b ∧ b.position = a.position ∧
    ∃ f, a.state.frames = f :: b.state.frames ∧ f.enteredAt ≠ some a.position

/-- At one position a region is entered, of a rule that is not among those entered there last. -/
def Pushes (a b : Spot) : Prop :=
  h.Goes line again text a b ∧ b.position = a.position ∧
    ∃ f, b.state = a.state.push f ∧ f.enteredAt = some a.position ∧ f.rule ∉ a.state.openedAt a.position

/-- No scan takes more turns from here. Moving on pays for all rules once more, each of which
may be entered and left. -/
def turnsLeft (a : Spot) : Nat :=
  a.state.frames.length +
    2 * ((text.size - a.position) * (h.grammar.rules.size + 1) + h.freshRules a.position a.state)

variable {h line again text} {a b c d : Spot} {n : Nat}

theorem turnsLeft_lt (hab : h.Goes line again text a b) : h.turnsLeft text b < h.turnsLeft text a := by
  obtain ⟨hle, hsize, hturn⟩ := step_eq_next hab
  have hfresh : h.freshRules b.position b.state ≤ h.grammar.rules.size := unseen_le ..
  have hlength : b.state.frames.length ≤ a.state.frames.length + 1 := by
    rcases hturn with ⟨f, hf, _⟩ | ⟨hs, _⟩ | ⟨f, hs, _⟩
    · simp [hf]
      omega
    · simp [hs]
    · simp [hs, State.push]
  unfold turnsLeft
  by_cases hlt : a.position < b.position
  · have hless : text.size - b.position + 1 ≤ text.size - a.position := by omega
    have := Nat.mul_le_mul_right (h.grammar.rules.size + 1) hless
    rw [Nat.add_mul] at this
    omega
  · have hsame : b.position = a.position := by omega
    rw [hsame] at hturn hfresh ⊢
    rcases hturn with ⟨f, hf, hne⟩ | ⟨_, hlt⟩ | ⟨f, hs, hat, hr, hne⟩
    · -- before the region was left all rules were fresh
      have hall : h.freshRules a.position a.state = h.grammar.rules.size := by
        simp [freshRules, State.openedAt, hf, hne, unseen_nil]
      have : b.state.frames.length < a.state.frames.length := by simp [hf]
      omega
    · omega
    · have : h.freshRules a.position b.state < h.freshRules a.position a.state := by
        simp only [freshRules, hs, State.openedAt_push hat]
        exact unseen_cons_lt hr (hne rfl)
      omega

theorem turns_le (hab : Turns (h.Goes line again text) n a b) : n + h.turnsLeft text b ≤ h.turnsLeft text a := by
  induction hab with
  | none => simp
  | more hfirst _ ih =>
    have := turnsLeft_lt hfirst
    omega

/-- A scan takes its turns until a step fails or ends the line. -/
theorem exists_turns (start : Nat) (s : State) (p : Painting) :
    ∃ n b, Turns (h.Goes line again text) n ⟨start, s, p⟩ b ∧
      ((∃ e, h.step line again text b.position b.state b.painting = .error e ∧
          h.scan line again text start s p = .error e) ∨
        ∃ s' p', h.step line again text b.position b.state b.painting = .ok (.done s' p') ∧
          h.scan line again text start s p = .ok (s', p')) := by
  induction start, s, p using scan.induct h line again text with
  | case1 start s p e hs => exact ⟨0, _, .none, .inl ⟨e, hs, scan_of_error hs⟩⟩
  | case2 start s p s' p' hs => exact ⟨0, _, .none, .inr ⟨s', p', hs, scan_of_done hs⟩⟩
  | case3 start s p i s' p' hs ih =>
    obtain ⟨n, b, hturns, hend⟩ := ih
    have hfirst : h.Goes line again text ⟨start, s, p⟩ ⟨i, s', p'⟩ := hs
    rw [scan_of_next hs]
    exact ⟨n + 1, b, .more hfirst hturns, hend⟩

/-! ## At one position -/

theorem position_le (hab : Turns (h.Goes line again text) n a b) : a.position ≤ b.position := by
  induction hab with
  | none => exact Nat.le_refl _
  | more hfirst _ ih => exact Nat.le_trans (step_eq_next hfirst).1 ih

theorem pops_or_pushes (hab : h.Goes line again text a b) (hb : b.position = a.position) :
    h.Pops line again text a b ∨ h.Pushes line again text a b := by
  obtain ⟨_, _, ⟨f, hf, hne⟩ | ⟨_, hlt⟩ | ⟨f, hs, hat, _, hne⟩⟩ := step_eq_next hab
  · exact .inl ⟨hab, hb, f, hf, hne hb⟩
  · omega
  · exact .inr ⟨hab, hb, f, hs, hat, hne hb⟩

/-- The regions that are entered at one position are of different rules, none of which had been
entered there last. -/
theorem entered_of_pushes (hab : Turns (h.Pushes line again text) n a b) :
    ∃ entered, b.state.frames = entered ++ a.state.frames ∧ entered.length = n ∧
      (∀ f ∈ entered, f.enteredAt = some a.position ∧ f.rule ∉ a.state.openedAt a.position) ∧
      (entered.map (·.rule)).Nodup := by
  induction hab with
  | none => exact ⟨[], rfl, rfl, List.forall_mem_nil _, .nil⟩
  | @more n a b c hfirst _ ih =>
    obtain ⟨_, hb, f, hs, hat, hf⟩ := hfirst
    obtain ⟨entered, hc, hn, hall, hnodup⟩ := ih
    rw [hb, hs, State.openedAt_push hat] at hall
    rw [hs] at hc
    refine ⟨entered ++ [f], ?_, ?_, ?_, ?_⟩
    · simp [hc, State.push]
    · simp [hn]
    · intro g hg
      rcases List.mem_append.mp hg with hg | hg
      · obtain ⟨hat', hg⟩ := hall g hg
        exact ⟨hat', fun hmem => hg (List.mem_cons_of_mem _ hmem)⟩
      · obtain rfl := List.mem_singleton.mp hg
        exact ⟨hat, hf⟩
    · rw [List.map_append, List.nodup_append]
      refine ⟨hnodup, by simp, ?_⟩
      intro r hr r' hr' heq
      obtain ⟨g, hg, rfl⟩ := List.mem_map.mp hr
      simp only [List.map_cons, List.map_nil, List.mem_singleton] at hr'
      apply (hall g hg).2
      simp [heq, hr']

/-- After a region has been entered none is left at that position. -/
theorem not_pops_of_pushes (hab : h.Pushes line again text a b) : ¬h.Pops line again text b c := by
  rintro ⟨_, _, g, hg, hne⟩
  obtain ⟨_, hb, f, hs, hat, _⟩ := hab
  rw [hs, State.push, List.cons.injEq] at hg
  apply hne
  rw [← hg.1, hat, hb]

theorem pops_then_pushes (hab : Turns (h.Goes line again text) n a b) (hb : b.position = a.position) :
    ∃ k m d, n = k + m ∧ Turns (h.Pops line again text) k a d ∧ Turns (h.Pushes line again text) m d b := by
  induction hab with
  | none => exact ⟨0, 0, _, rfl, .none, .none⟩
  | @more n a c b hfirst hrest ih =>
    have hc : c.position = a.position := by
      have := (step_eq_next hfirst).1
      have := position_le hrest
      omega
    obtain ⟨k, m, d, rfl, hpops, hpushes⟩ := ih (hb.trans hc.symm)
    rcases pops_or_pushes hfirst hc with hfirst | hfirst
    · exact ⟨k + 1, m, d, by omega, .more hfirst hpops, hpushes⟩
    · cases hpops with
      | none => exact ⟨0, m + 1, a, by omega, .none, .more hfirst hpushes⟩
      | more hsecond _ => exact absurd hsecond (not_pops_of_pushes hfirst)

/-- A match of nothing that returns to what was there gives up the rest of the line. -/
theorem done_of_returns {choice : Choice} {m : Match} (hn : h.next text a.position a.state = some (choice, m))
    (hm : m.span.stop = a.position) (hreturns : choice.Returns a.state a.position) {r : Progress}
    (hr : h.step line again text a.position a.state a.painting = .ok r) :
    ∃ (s : State) (p : Painting), r = .done s (p.paint a.position text.size s.scopes) := by
  rw [step_of_next_eq_some h line again text a.painting hn] at hr
  cases choice with
  | leave f below =>
    obtain ⟨q, _, hr⟩ := Results.bind_eq_ok.mp hr
    have hentered : f.enteredAt = some a.position := hreturns
    simp only [settle, hm, Nat.le_refl, true_and, if_pos hentered] at hr
    cases hr
    exact ⟨_, q, rfl⟩
  | piece name captures =>
    obtain ⟨q, _, hr⟩ := Results.bind_eq_ok.mp hr
    simp only [settle, hm, Nat.le_refl, if_true] at hr
    cases hr
    exact ⟨_, q, rfl⟩
  | enter id region =>
    have hopened : id ∈ a.state.openedAt a.position := hreturns
    simp only [State.painted?, hm, true_and, if_pos hopened] at hr
    cases hr
    exact ⟨_, _, rfl⟩

/-- A scan takes finitely many turns. At one position these leave regions that were not entered
there and then enter regions of different rules, and a match of nothing that goes back on one
of these, or does neither, ends the line. -/
theorem scan_guarded (h : Highlighter) (line : Nat) (again : Retokenize) (text : Array Char) :
    (∀ n a b, Turns (h.Goes line again text) n a b → n ≤ h.turnsLeft text a) ∧
    (∀ start s p, ∃ n b, Turns (h.Goes line again text) n ⟨start, s, p⟩ b ∧
      ((∃ e, h.step line again text b.position b.state b.painting = .error e ∧
          h.scan line again text start s p = .error e) ∨
        ∃ s' p', h.step line again text b.position b.state b.painting = .ok (.done s' p') ∧
          h.scan line again text start s p = .ok (s', p'))) ∧
    (∀ n a b, Turns (h.Goes line again text) n a b → b.position = a.position →
      ∃ k m d entered, n = k + m ∧ Turns (h.Pops line again text) k a d ∧ Turns (h.Pushes line again text) m d b ∧
        b.state.frames = entered ++ d.state.frames ∧ entered.length = m ∧ (entered.map (·.rule)).Nodup) ∧
    (∀ (a : Spot) (choice : Choice) (m : Match), h.next text a.position a.state = some (choice, m) →
      m.span.stop = a.position → choice.Returns a.state a.position →
      ∀ r, h.step line again text a.position a.state a.painting = .ok r →
        ∃ (s : State) (p : Painting), r = .done s (p.paint a.position text.size s.scopes)) := by
  refine ⟨?_, exists_turns, ?_, ?_⟩
  · intro n a b hab
    have := turns_le hab
    omega
  · intro n a b hab hb
    obtain ⟨k, m, d, hn, hpops, hpushes⟩ := pops_then_pushes hab hb
    obtain ⟨entered, hframes, hm, _, hnodup⟩ := entered_of_pushes hpushes
    exact ⟨k, m, d, entered, hn, hpops, hpushes, hframes, hm, hnodup⟩
  · intro a choice m hn hm hreturns r hr
    exact done_of_returns hn hm hreturns hr

end Highlighter

end Highlight
