import Highlight.Proofs.LineText
import Highlight.Scope.Found
import Mathlib.Data.List.Induction

/-!
# Scope names and what is found

A scope lies within another one if it begins with all of its segments. Scopes are
found once each, in the order in which they first occur.
-/

namespace Highlight.Scope

def segments (name : String) : List (List Char) :=
  name.toList.splitOn '.'

theorem segments_ne_nil (name : String) : segments name ≠ [] :=
  List.splitOn_ne_nil '.' name.toList

theorem intercalate_append {x : Char} : ∀ {l m : List (List Char)}, l ≠ [] → m ≠ [] →
    [x].intercalate (l ++ m) = [x].intercalate l ++ x :: [x].intercalate m
  | [], _, hl, _ => absurd rfl hl
  | [a], m, _, hm => by
    rw [List.singleton_append, List.intercalate_cons_of_ne_nil hm, List.intercalate_singleton]
    simp
  | a :: b :: l, m, _, hm => by
    rw [List.cons_append, List.intercalate_cons_of_ne_nil (by simp),
      intercalate_append (List.cons_ne_nil b l) hm, List.intercalate_cons_cons]
    simp

theorem toList_eq_intercalate (name : String) : name.toList = ['.'].intercalate (segments name) :=
  (List.intercalate_splitOn '.').symm

/-- The segments of the more general scope come first. -/
theorem within_iff (actual expected : String) :
    within actual expected = true ↔ segments expected <+: segments actual := by
  unfold within
  rw [Bool.and_eq_true, List.isPrefixOf_iff_prefix]
  constructor
  · rintro ⟨⟨rest, hrest⟩, hdot⟩
    rw [← hrest, List.drop_left] at hdot
    unfold segments
    cases rest with
    | nil =>
      have hsame : expected.toList = actual.toList := by rw [← hrest, List.append_nil]
      exact hsame ▸ List.prefix_refl _
    | cons c rest =>
      obtain rfl : c = '.' := by simpa using hdot
      rw [← hrest, List.splitOn_append_cons_self]
      exact List.prefix_append _ _
  · rintro ⟨more, hmore⟩
    have hactual := toList_eq_intercalate actual
    rw [← hmore] at hactual
    cases more with
    | nil =>
      rw [List.append_nil, ← toList_eq_intercalate] at hactual
      rw [hactual, List.drop_length]
      exact ⟨List.prefix_refl _, rfl⟩
    | cons m more =>
      rw [intercalate_append (segments_ne_nil expected) (List.cons_ne_nil m more),
        ← toList_eq_intercalate] at hactual
      rw [hactual, List.drop_left]
      exact ⟨List.prefix_append _ _, rfl⟩

/-! ## Found scopes -/

namespace Found

theorem names_insert (f : Found) (name : String) :
    (f.insert name).names = if name ∈ f.names then f.names else f.names ++ [name] := by
  unfold insert
  split
  · rfl
  · rfl

theorem ext_names {f g : Found} (h : f.names = g.names) : f = g := by
  cases f
  cases g
  cases h
  rfl

theorem foldl_insert_of_subset : ∀ {names : List String} {f : Found}, (∀ n ∈ names, n ∈ f.names) →
    names.foldl insert f = f
  | [], _, _ => rfl
  | n :: names, f, hn => by
    have hf : f.insert n = f := by
      apply ext_names
      rw [names_insert, if_pos (hn n (List.mem_cons_self ..))]
    rw [List.foldl_cons, hf]
    exact foldl_insert_of_subset fun m hm => hn m (List.mem_cons_of_mem n hm)

theorem names_ofList (names : List String) : (ofList names).names = names.eraseDups := by
  induction names using List.reverseRecOn with
  | nil => rfl
  | append_singleton names n ih =>
    have hn : ofList (names ++ [n]) = (ofList names).insert n := by
      unfold ofList
      rw [List.foldl_append]
      rfl
    rw [hn, names_insert, ih, List.eraseDups_append, List.cons_removeAll]
    by_cases hmem : n ∈ names
    · rw [if_pos (List.mem_eraseDups.mpr hmem), if_neg (by simp [hmem])]
      exact (List.append_nil _).symm
    · rw [if_neg (fun h => hmem (List.mem_eraseDups.mp h)), if_pos (by simp [hmem])]
      rfl

end Found

end Highlight.Scope
