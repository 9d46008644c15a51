import Highlight.Proofs.ScopeNames

/-!
# The order of scopes

To lie within another scope is to begin with all of its segments. So scopes are ordered as lists
by their prefixes: those around one scope form a chain, and what meets an expectation meets all that
lies around it. What is found meets an expectation by the names alone that are in it, in whatever
order they came and however often.
-/

namespace Highlight.Scope

variable {a b c : String}

theorem segments_injective (h : segments a = segments b) : a = b := by
  apply String.toList_inj.mp
  rw [toList_eq_intercalate a, h, ← toList_eq_intercalate b]

theorem within_refl (a : String) : within a a = true :=
  (within_iff a a).mpr (List.prefix_refl _)

theorem within_trans (hab : within a b = true) (hbc : within b c = true) : within a c = true := by
  rw [within_iff] at hab hbc ⊢
  exact hbc.trans hab

theorem within_antisymm (hab : within a b = true) (hba : within b a = true) : a = b := by
  rw [within_iff] at hab hba
  exact segments_injective (hba.eq_of_length_le hab.length_le)

theorem within_total (hb : within a b = true) (hc : within a c = true) : within b c = true ∨ within c b = true := by
  rw [within_iff] at hb hc
  rcases List.prefix_or_prefix_of_prefix hb hc with h | h
  · exact .inr ((within_iff c b).mpr h)
  · exact .inl ((within_iff b c).mpr h)

/-! ## What is met -/

namespace Found

variable {names names' : List String} {expected general : String}

theorem meets_ofList : (ofList names).meets expected = true ↔ ∃ name ∈ names, within name expected = true := by
  unfold meets
  rw [names_ofList, List.any_eq_true]
  constructor
  · rintro ⟨name, hname, h⟩
    exact ⟨name, List.mem_eraseDups.mp hname, h⟩
  · rintro ⟨name, hname, h⟩
    exact ⟨name, List.mem_eraseDups.mpr hname, h⟩

theorem meets_general (hgeneral : within expected general = true) (h : (ofList names).meets expected = true) :
    (ofList names).meets general = true := by
  obtain ⟨name, hname, hwithin⟩ := meets_ofList.mp h
  exact meets_ofList.mpr ⟨name, hname, within_trans hwithin hgeneral⟩

theorem meets_congr (h : ∀ name, name ∈ names ↔ name ∈ names') (expected : String) :
    (ofList names).meets expected = (ofList names').meets expected := by
  rw [Bool.eq_iff_iff, meets_ofList, meets_ofList]
  constructor
  · rintro ⟨name, hname, hwithin⟩
    exact ⟨name, (h name).mp hname, hwithin⟩
  · rintro ⟨name, hname, hwithin⟩
    exact ⟨name, (h name).mpr hname, hwithin⟩

end Found

/-- Being within is the prefix order of segments, and what is found meets whatever lies around an
expectation it meets. -/
theorem within_prefix_order :
    (∀ actual expected, within actual expected = true ↔ segments expected <+: segments actual) ∧
    (∀ a, within a a = true) ∧
    (∀ a b c, within a b = true → within b c = true → within a c = true) ∧
    (∀ a b, within a b = true → within b a = true → a = b) ∧
    (∀ actual b c, within actual b = true → within actual c = true → within b c = true ∨ within c b = true) ∧
    (∀ names expected general, (Found.ofList names).meets expected = true → within expected general = true →
      (Found.ofList names).meets general = true) ∧
    (∀ names names', (∀ name, name ∈ names ↔ name ∈ names') →
      ∀ expected, (Found.ofList names).meets expected = (Found.ofList names').meets expected) := by
  refine ⟨within_iff, within_refl, ?_, ?_, ?_, ?_, ?_⟩
  · intro a b c
    exact within_trans
  · intro a b
    exact within_antisymm
  · intro actual b c
    exact within_total
  · intro names expected general h hgeneral
    exact Found.meets_general hgeneral h
  · intro names names' h
    exact Found.meets_congr h

-- the empty name has one segment, an empty one, and so lies around `.x` only by way of its dot
example : within ".x" "" = true ∧ within "x" "" = false ∧ within "a..b" "a." = true ∧ within "a.b" "a." = false := by
  decide

end Highlight.Scope
