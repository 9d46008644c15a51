import Highlight.Proofs.Lines

/-!
# Scopes are rooted

Scopes only ever grow by the words of a template, on top of the scope of the grammar. So each
token has that scope first and words after it.
-/

namespace Highlight

def Text.IsWord (w : String) : Prop :=
  w ≠ "" ∧ ∀ c ∈ w.toList, Unicode.isBlank c = false

theorem Text.mem_words : ∀ {cs w : List Char}, w ∈ words cs → w ≠ [] ∧ ∀ c ∈ w, Unicode.isBlank c = false
  | [], w, h => by cases h
  | c :: cs, w, h => by
    unfold words at h
    by_cases hc : Unicode.isBlank c = true
    · rw [if_pos hc] at h
      exact mem_words h
    · have hsingle : [c] ≠ [] ∧ ∀ d ∈ [c], Unicode.isBlank d = false :=
        ⟨by simp, List.forall_mem_singleton.mpr (by simpa using hc)⟩
      rw [if_neg hc] at h
      split at h
      · rename_i d rest v vs hvs
        have hmem : v ∈ words (d :: rest) := by
          rw [hvs]
          exact List.mem_cons_self ..
        have hv := mem_words hmem
        split at h
        · rcases List.mem_cons.mp h with rfl | h
          · exact hsingle
          · exact mem_words (by rw [hvs]; exact h)
        · rcases List.mem_cons.mp h with rfl | h
          · exact ⟨by simp, List.forall_mem_cons.mpr ⟨by simpa using hc, hv.2⟩⟩
          · exact mem_words (by rw [hvs]; exact List.mem_cons_of_mem v h)
      · rcases List.mem_cons.mp h with rfl | h
        · exact hsingle
        · exact mem_words h

theorem Scope.isWord_of_mem {template : Option String} {groups : List (Option String)} {w : String}
    (h : w ∈ ofTemplate template groups) : Text.IsWord w := by
  unfold ofTemplate at h
  split at h
  · cases h
  · obtain ⟨cs, hcs, rfl⟩ := List.mem_map.mp h
    obtain ⟨hne, hblank⟩ := Text.mem_words hcs
    refine ⟨fun he => hne ?_, by rwa [String.toList_ofList]⟩
    have := congrArg String.toList he
    rwa [String.toList_ofList] at this

/-- The scopes are words on top of the scope of the whole text. -/
def Scope.Rooted (root : String) (scopes : List String) : Prop :=
  ∃ ws, scopes = root :: ws ∧ ∀ w ∈ ws, Text.IsWord w

theorem Painting.scopes_of_mem_paint {p : Painting} {i j : Nat} {scopes : List String} {s : Stretch}
    (hs : s ∈ (p.paint i j scopes).stretches) : s.scopes = scopes ∨ ∃ t ∈ p.stretches, s.scopes = t.scopes := by
  unfold paint at hs
  simp only at hs
  split at hs
  · unfold add at hs
    split at hs
    · rw [List.mem_singleton.mp hs]
      exact .inl rfl
    · rename_i last before hp
      split at hs
      · rcases List.mem_cons.mp hs with rfl | hs
        · exact .inr ⟨last, by simp [hp], rfl⟩
        · exact .inr ⟨s, by simp [hp, hs], rfl⟩
      · rcases List.mem_cons.mp hs with rfl | hs
        · exact .inl rfl
        · exact .inr ⟨s, by rwa [hp], rfl⟩
  · exact .inr ⟨s, hs, rfl⟩

theorem Painting.rooted_law (root : String) :
    Law (fun _ p => ∀ s ∈ p.stretches, Scope.Rooted root s.scopes) (Scope.Rooted root) where
  paint _ hscopes hp s hs := by
    rcases scopes_of_mem_paint hs with he | ⟨t, ht, he⟩
    · exact he ▸ hscopes
    · exact he ▸ hp t ht
  named template groups hscopes := by
    obtain ⟨ws, rfl, hws⟩ := hscopes
    refine ⟨ws ++ Scope.ofTemplate template groups, rfl, fun w hw => ?_⟩
    rcases List.mem_append.mp hw with hw | hw
    · exact hws w hw
    · exact Scope.isWord_of_mem hw

namespace Highlighter

variable {h : Highlighter}

theorem rooted_paintLines {root : String} : ∀ {ls : List (List Char)} {number : Nat} {s : State}
    {e : State × List Painting}, s.Over (Scope.Rooted root) → h.paintLines number s ls = .ok e →
    ∀ p ∈ e.2, ∀ t ∈ p.stretches, Scope.Rooted root t.scopes
  | [], _, _, _, _, he => by
    cases he
    exact List.forall_mem_nil _
  | l :: ls, _, _, _, hs, he => by
    rw [paintLines] at he
    obtain ⟨⟨s', p⟩, hp, he⟩ := Results.bind_eq_ok.mp he
    obtain ⟨⟨s'', ps⟩, hps, he⟩ := Results.bind_eq_ok.mp he
    cases he
    obtain ⟨hs', hpaint⟩ := keeps_paintLine (Painting.rooted_law root) hs (List.forall_mem_nil _) hp
    exact List.forall_mem_cons.mpr ⟨hpaint, rooted_paintLines hs' hps⟩

theorem rooted_tokenize {text : String} {t : TokenizedText} (ht : h.tokenize text true = .ok t) :
    ∀ tokens ∈ t.lines, ∀ token ∈ tokens, Scope.Rooted h.grammar.scopeName token.scopes := by
  rw [tokenize_eq] at ht
  obtain ⟨e, he, rfl⟩ := Results.map_eq_ok.mp ht
  have hstart : (State.start 0 [h.grammar.scopeName]).Over (Scope.Rooted h.grammar.scopeName) :=
    .start ⟨[], rfl, List.forall_mem_nil _⟩
  have hpaint := rooted_paintLines hstart he
  intro tokens htokens token htoken
  obtain ⟨i, hi⟩ := List.getElem?_of_mem htokens
  obtain ⟨l, p, _, hp, rfl⟩ := getElem?_tokensOf true hi
  obtain ⟨s, hs, rfl⟩ := List.mem_map.mp htoken
  have hrooted := hpaint p (List.mem_of_getElem? hp) s (List.mem_reverse.mp hs)
  rwa [Painting.scopes_token]

end Highlighter

end Highlight
