import Highlight.Proofs.Compiled
import Highlight.Regex.Search
import Mathlib.Data.List.Basic

/-!
# Candidates as plain expansion

The candidates of a rule are found in one pass that never goes into a container twice. Plainly
expanded, a container stands for its own rules each time it comes up, unless it is just being
expanded, and of each rule the first occurrence counts. Both come to the same. A container that
was gone through before has brought all rules in it but those behind containers that were being
expanded at the time; of these some are still being expanded, where plain expansion stops as
well, and the others have been gone through since.
-/

namespace Highlight

/-! ## First occurrences -/

theorem nodup_eraseDups : ∀ l : List Nat, l.eraseDups.Nodup
  | [] => .nil
  | a :: l => by
    rw [List.eraseDups_cons, List.nodup_cons, List.mem_eraseDups]
    exact ⟨by simp, nodup_eraseDups _⟩
termination_by l => l.length
decreasing_by exact Nat.lt_succ_of_le (List.length_filter_le _ _)

def fresh (seen l : List Nat) : List Nat :=
  (l.filter (· ∉ seen)).eraseDups

section

variable {seen seen' l m : List Nat}

theorem fresh_nil (l : List Nat) : fresh [] l = l.eraseDups := by
  rw [fresh, List.filter_eq_self.mpr (by simp)]

theorem fresh_of_subset (h : l ⊆ seen) : fresh seen l = [] := by
  rw [fresh, List.filter_eq_nil_iff.mpr fun j hj => by simpa using h hj]
  rfl

theorem fresh_congr (h : ∀ j ∈ l, j ∈ seen ↔ j ∈ seen') : fresh seen l = fresh seen' l := by
  rw [fresh, fresh]
  congr 1
  exact List.filter_congr fun j hj => by simp only [h j hj]

theorem fresh_append (seen l m : List Nat) : fresh seen (l ++ m) = fresh seen l ++ fresh (seen ++ l) m := by
  rw [fresh, List.filter_append, List.eraseDups_append, List.removeAll, List.filter_filter, fresh, fresh]
  congr 2
  refine List.filter_congr fun j _ => ?_
  by_cases hj : j ∈ seen
  · simp [hj]
  · simp [hj]

theorem fresh_cons {id : Nat} (hid : id ∉ seen) : fresh seen (id :: l) = id :: fresh (id :: seen) l := by
  rw [← List.singleton_append, fresh_append]
  have hone : fresh seen [id] = [id] := by
    rw [fresh, List.filter_eq_self.mpr (by simpa using hid)]
    rfl
  rw [hone, List.singleton_append]
  congr 1
  exact fresh_congr fun j _ => by simp [or_comm]

end

variable {π : Type}

/-! ## Plain expansion -/

/-- The rules of a list, each container replaced by the expansion of its own rules, unless it is
on the path of containers that are being expanded. -/
def expansion (rules : Array (Rule Nat π)) (ids path : List Nat) : List Nat :=
  match ids with
  | [] => []
  | id :: ids =>
    match _h : rules[id]? with
    | none => expansion rules ids path
    | some (.container inner) =>
      if id ∈ path then expansion rules ids path
      else expansion rules inner (id :: path) ++ expansion rules ids path
    | some _ => id :: expansion rules ids path
termination_by (unseen rules.size path, ids.length)
decreasing_by
  all_goals grind

def Starts (rules : Array (Rule Nat π)) (id : Nat) : Prop :=
  ∃ r, rules[id]? = some r ∧ ¬r.isContainer = true

inductive Within (rules : Array (Rule Nat π)) (ids : List Nat) : Nat → Prop
  | here {id : Nat} : id ∈ ids → Within rules ids id
  | inside {c id : Nat} {inner : List Nat} : Within rules ids c → rules[c]? = some (.container inner) → id ∈ inner →
    Within rules ids id

section

variable {rules : Array (Rule Nat π)} {id j : Nat} {ids inner path seen seen' : List Nat}

theorem Within.mono {ids' : List Nat} (h : Within rules ids j) (hids : ids ⊆ ids') : Within rules ids' j := by
  induction h with
  | here hj => exact .here (hids hj)
  | inside _ hr hj ih => exact .inside ih hr hj

theorem Within.container {c : Nat} (h : Within rules inner j) (hr : rules[c]? = some (.container inner)) (hc : c ∈ ids) :
    Within rules ids j := by
  induction h with
  | here hj => exact .inside (.here hc) hr hj
  | inside _ hr' hj ih => exact .inside ih hr' hj

theorem expand_of_mem (hseen : id ∈ seen) : expand rules (id :: ids) seen = expand rules ids seen := by
  rw [expand, if_pos hseen]

theorem expand_of_none (hseen : id ∉ seen) (hr : rules[id]? = none) :
    expand rules (id :: ids) seen = expand rules ids (id :: seen) := by
  rw [expand, if_neg hseen]
  split
  · rfl
  · simp_all
  · simp_all

theorem expand_of_container (hseen : id ∉ seen) (hr : rules[id]? = some (.container inner)) :
    expand rules (id :: ids) seen = expand rules (inner ++ ids) (id :: seen) := by
  rw [expand, if_neg hseen]
  split
  · simp_all
  · simp_all
  · simp_all

theorem expand_of_some (hseen : id ∉ seen) {r : Rule Nat π} (hr : rules[id]? = some r) (hc : ¬r.isContainer = true) :
    expand rules (id :: ids) seen = id :: expand rules ids (id :: seen) := by
  rw [expand, if_neg hseen]
  split
  · simp_all
  · rename_i inner hinner
    rw [hr, Option.some.injEq] at hinner
    exact absurd (Rule.isContainer_iff.mpr ⟨inner, hinner⟩) hc
  · rfl

theorem expansion_nil : expansion rules [] path = [] := by
  rw [expansion]

theorem expansion_of_none (hr : rules[id]? = none) : expansion rules (id :: ids) path = expansion rules ids path := by
  rw [expansion]
  split
  · rfl
  · simp_all
  · simp_all

theorem expansion_of_container (hr : rules[id]? = some (.container inner)) :
    expansion rules (id :: ids) path =
      (if id ∈ path then [] else expansion rules inner (id :: path)) ++ expansion rules ids path := by
  rw [expansion]
  split
  · simp_all
  · rename_i inner' hinner
    rw [hr, Option.some.injEq, Rule.container.injEq] at hinner
    subst hinner
    split
    · rfl
    · rfl
  · simp_all

theorem expansion_of_starts (hs : Starts rules id) : expansion rules (id :: ids) path = id :: expansion rules ids path := by
  obtain ⟨r, hr, hc⟩ := hs
  rw [expansion]
  split
  · simp_all
  · rename_i inner hinner
    rw [hr, Option.some.injEq] at hinner
    exact absurd (Rule.isContainer_iff.mpr ⟨inner, hinner⟩) hc
  · rfl

theorem cases_rule (rules : Array (Rule Nat π)) (id : Nat) :
    rules[id]? = none ∨ (∃ inner, rules[id]? = some (.container inner)) ∨ Starts rules id := by
  cases hr : rules[id]? with
  | none => exact .inl rfl
  | some r =>
    by_cases hc : r.isContainer = true
    · obtain ⟨inner, rfl⟩ := Rule.isContainer_iff.mp hc
      exact .inr (.inl ⟨inner, rfl⟩)
    · exact .inr (.inr ⟨r, hr, hc⟩)

theorem starts_of_ne {r : Rule Nat π} (hr : rules[id]? = some r) (hne : ∀ inner, r ≠ .container inner) : Starts rules id := by
  refine ⟨r, hr, fun hc => ?_⟩
  obtain ⟨inner, rfl⟩ := Rule.isContainer_iff.mp hc
  exact hne inner rfl

theorem Starts.not_container (hs : Starts rules id) : rules[id]? ≠ some (.container inner) := by
  obtain ⟨r, hr, hc⟩ := hs
  rw [hr]
  rintro ⟨rfl⟩
  exact hc rfl

/-! ## What has been gone through -/

/-- Of what has been seen, the containers that are not on the path have been gone through. -/
structure GoneThrough (rules : Array (Rule Nat π)) (path seen : List Nat) : Prop where
  opened : path ⊆ seen
  closed : ∀ c ∈ seen, c ∉ path → ∀ inner, rules[c]? = some (.container inner) → inner ⊆ seen

namespace GoneThrough

theorem enter (h : GoneThrough rules path seen) (id : Nat) : GoneThrough rules (id :: path) (id :: seen) where
  opened := List.cons_subset_cons id h.opened
  closed c hc hpath inner hr := by
    obtain ⟨hne, hpath⟩ := not_or.mp (mt List.mem_cons.mpr hpath)
    rcases List.mem_cons.mp hc with hc | hc
    · exact absurd hc hne
    · exact List.subset_cons_of_subset id (h.closed c hc hpath inner hr)

theorem see (h : GoneThrough rules path seen) (hid : ∀ inner, rules[id]? ≠ some (.container inner)) :
    GoneThrough rules path (id :: seen) where
  opened := List.subset_cons_of_subset id h.opened
  closed c hc hpath inner hr := by
    rcases List.mem_cons.mp hc with rfl | hc
    · exact absurd hr (hid inner)
    · exact List.subset_cons_of_subset id (h.closed c hc hpath inner hr)

/-- A container has been gone through when all in it has been seen. -/
theorem leave (h : GoneThrough rules (id :: path) seen) (hr : rules[id]? = some (.container inner))
    (hinner : inner ⊆ seen) : GoneThrough rules path seen where
  opened := List.subset_of_cons_subset h.opened
  closed c hc hpath inner' hr' := by
    by_cases hid : c = id
    · subst hid
      rw [hr, Option.some.injEq, Rule.container.injEq] at hr'
      exact hr' ▸ hinner
    · exact h.closed c hc (List.not_mem_cons_of_ne_of_not_mem hid hpath) inner' hr'

/-- What has been seen brings nothing new: a container has been gone through, or is on the path and
not expanded again. -/
theorem expansion_subset (h : GoneThrough rules path seen) (hids : ids ⊆ seen) : expansion rules ids path ⊆ seen := by
  induction ids, path using expansion.induct rules with
  | case1 path =>
    rw [expansion_nil]
    exact List.nil_subset _
  | case2 path id ids hr ih =>
    rw [expansion_of_none hr]
    exact ih h (List.subset_of_cons_subset hids)
  | case3 path id ids inner hr hpath ih =>
    rw [expansion_of_container hr, if_pos hpath]
    exact ih h (List.subset_of_cons_subset hids)
  | case4 path id ids inner hr hpath ihinner ih =>
    rw [expansion_of_container hr, if_neg hpath]
    have hid : id ∈ seen := hids (List.mem_cons_self ..)
    have henter : GoneThrough rules (id :: path) seen := by
      refine ⟨List.cons_subset.mpr ⟨hid, h.opened⟩, fun c hc hc' => h.closed c hc ?_⟩
      exact List.not_mem_of_not_mem_cons hc'
    exact List.append_subset.mpr ⟨ihinner henter (h.closed id hid hpath inner hr), ih h (List.subset_of_cons_subset hids)⟩
  | case5 path id ids r hne hr ih =>
    rw [expansion_of_starts (starts_of_ne hr hne)]
    exact List.cons_subset.mpr ⟨hids (List.mem_cons_self ..), ih h (List.subset_of_cons_subset hids)⟩

end GoneThrough

theorem expansion_cons (rules : Array (Rule Nat π)) (id : Nat) (ids path : List Nat) :
    expansion rules (id :: ids) path = expansion rules [id] path ++ expansion rules ids path := by
  rcases cases_rule rules id with hr | ⟨inner, hr⟩ | hs
  · rw [expansion_of_none hr, expansion_of_none hr, expansion_nil, List.nil_append]
  · rw [expansion_of_container hr, expansion_of_container hr, expansion_nil, List.append_nil]
  · rw [expansion_of_starts hs, expansion_of_starts hs, expansion_nil, List.singleton_append]

/-- What an expansion holds may start, and is within the list. -/
theorem of_mem_expansion (hj : j ∈ expansion rules ids path) : Starts rules j ∧ Within rules ids j := by
  induction ids, path using expansion.induct rules with
  | case1 path =>
    rw [expansion_nil] at hj
    cases hj
  | case2 path id ids hr ih =>
    rw [expansion_of_none hr] at hj
    exact (ih hj).imp_right (·.mono (List.subset_cons_self id ids))
  | case3 path id ids inner hr hpath ih =>
    rw [expansion_of_container hr, if_pos hpath] at hj
    exact (ih hj).imp_right (·.mono (List.subset_cons_self id ids))
  | case4 path id ids inner hr hpath ihinner ih =>
    rw [expansion_of_container hr, if_neg hpath] at hj
    rcases List.mem_append.mp hj with hj | hj
    · exact (ihinner hj).imp_right (·.container hr (List.mem_cons_self ..))
    · exact (ih hj).imp_right (·.mono (List.subset_cons_self id ids))
  | case5 path id ids r hne hr ih =>
    have hs := starts_of_ne hr hne
    rw [expansion_of_starts hs] at hj
    rcases List.mem_cons.mp hj with rfl | hj
    · exact ⟨hs, .here (List.mem_cons_self ..)⟩
    · exact (ih hj).imp_right (·.mono (List.subset_cons_self id ids))

structure Goes (rules : Array (Rule Nat π)) (path ids seen seen' : List Nat) : Prop where
  gone : GoneThrough rules path seen'
  all : ids ⊆ seen'
  more : seen ⊆ seen'
  starts : ∀ j, Starts rules j → (j ∈ seen' ↔ j ∈ seen ∨ j ∈ expansion rules ids path)
  found : ∀ rest, expand rules (ids ++ rest) seen = fresh seen (expansion rules ids path) ++ expand rules rest seen'

namespace Goes

theorem nil (h : GoneThrough rules path seen) : Goes rules path [] seen seen where
  gone := h
  all := List.nil_subset _
  more := List.Subset.refl _
  starts j _ := by simp [expansion_nil]
  found rest := by rw [expansion_nil, fresh_of_subset (List.nil_subset _), List.nil_append, List.nil_append]

theorem cons {seen₁ : List Nat} (hid : Goes rules path [id] seen seen₁) (hids : Goes rules path ids seen₁ seen') :
    Goes rules path (id :: ids) seen seen' where
  gone := hids.gone
  all := List.cons_subset.mpr ⟨hids.more (hid.all (List.mem_singleton_self id)), hids.all⟩
  more := List.Subset.trans hid.more hids.more
  starts j hj := by rw [hids.starts j hj, hid.starts j hj, expansion_cons rules id ids, List.mem_append, or_assoc]
  found rest := by
    -- Only rules that may start come up in an expansion, and of these the first rule has brought
    -- just those of its own expansion.
    have hfresh : fresh (seen ++ expansion rules [id] path) (expansion rules ids path) =
        fresh seen₁ (expansion rules ids path) :=
      fresh_congr fun j hj => by rw [hid.starts j ((of_mem_expansion hj).1), List.mem_append]
    have hrest := hid.found (ids ++ rest)
    rw [List.singleton_append] at hrest
    rw [List.cons_append, hrest, hids.found rest, expansion_cons rules id ids, fresh_append, hfresh, List.append_assoc]

theorem of_mem (h : GoneThrough rules path seen) (hid : id ∈ seen) : Goes rules path [id] seen seen := by
  have hnew : expansion rules [id] path ⊆ seen := h.expansion_subset (by simpa using hid)
  refine ⟨h, by simpa using hid, List.Subset.refl _, fun j _ => (or_iff_left_of_imp fun hj => hnew hj).symm, fun rest => ?_⟩
  rw [fresh_of_subset hnew, List.singleton_append, expand_of_mem hid, List.nil_append]

theorem of_none (h : GoneThrough rules path seen) (hid : id ∉ seen) (hr : rules[id]? = none) :
    Goes rules path [id] seen (id :: seen) where
  gone := h.see fun inner hc => by simp [hr] at hc
  all := by simp
  more := List.subset_cons_self _ _
  starts j hj := by
    obtain ⟨r, hj, _⟩ := hj
    have hne : j ≠ id := fun he => by simp [← he, hj] at hr
    rw [expansion_of_none hr, expansion_nil]
    simp [hne]
  found rest := by
    rw [expansion_of_none hr, expansion_nil, fresh_of_subset (List.nil_subset _), List.singleton_append,
      expand_of_none hid hr, List.nil_append]

theorem of_starts (h : GoneThrough rules path seen) (hid : id ∉ seen) (hs : Starts rules id) :
    Goes rules path [id] seen (id :: seen) where
  gone := h.see fun _ => hs.not_container
  all := by simp
  more := List.subset_cons_self _ _
  starts j _ := by
    rw [expansion_of_starts hs, expansion_nil]
    simp [or_comm]
  found rest := by
    obtain ⟨r, hr, hc⟩ := hs
    rw [expansion_of_starts ⟨r, hr, hc⟩, expansion_nil, fresh_cons hid, fresh_of_subset (List.nil_subset _),
      List.singleton_append, expand_of_some hid hr hc, List.singleton_append]

theorem of_container (hpath : path ⊆ seen) (hid : id ∉ seen) (hr : rules[id]? = some (.container inner))
    (h : Goes rules (id :: path) inner (id :: seen) seen') : Goes rules path [id] seen seen' := by
  have hexpansion : expansion rules [id] path = expansion rules inner (id :: path) := by
    rw [expansion_of_container hr, if_neg fun hmem => hid (hpath hmem), expansion_nil, List.append_nil]
  have hseen {j : Nat} (hj : Starts rules j) : j ∈ id :: seen ↔ j ∈ seen := by
    have hne : j ≠ id := fun he => hj.not_container (he ▸ hr)
    simp [hne]
  refine ⟨h.gone.leave hr h.all, ?_, List.subset_of_cons_subset h.more, fun j hj => ?_, fun rest => ?_⟩
  · exact List.cons_subset.mpr ⟨h.more (List.mem_cons_self ..), List.nil_subset _⟩
  · rw [h.starts j hj, hseen hj, hexpansion]
  · rw [List.singleton_append, expand_of_container hid hr, h.found rest, hexpansion,
      fresh_congr fun j hj => hseen ((of_mem_expansion hj).1)]

end Goes

theorem exists_goes (h : GoneThrough rules path seen) : ∃ seen', Goes rules path ids seen seen' := by
  -- Along the plain expansion, for whatever has been seen: the pass carries `seen` from each rule
  -- to the next, and `GoneThrough` holds again after each.
  induction ids, path using expansion.induct rules generalizing seen with
  | case1 path => exact ⟨seen, .nil h⟩
  | case2 path id ids hr ih =>
    by_cases hid : id ∈ seen
    · obtain ⟨seen', hids⟩ := ih h
      exact ⟨seen', (Goes.of_mem h hid).cons hids⟩
    · have hone := Goes.of_none h hid hr
      obtain ⟨seen', hids⟩ := ih hone.gone
      exact ⟨seen', hone.cons hids⟩
  | case3 path id ids inner hr hpath ih =>
    -- On the path it has been seen, so that the pass leaves it out as well.
    obtain ⟨seen', hids⟩ := ih h
    exact ⟨seen', (Goes.of_mem h (h.opened hpath)).cons hids⟩
  | case4 path id ids inner hr hpath ihinner ih =>
    by_cases hid : id ∈ seen
    · obtain ⟨seen', hids⟩ := ih h
      exact ⟨seen', (Goes.of_mem h hid).cons hids⟩
    · obtain ⟨seen₁, hinner⟩ := ihinner (h.enter id)
      have hone := Goes.of_container h.opened hid hr hinner
      obtain ⟨seen', hids⟩ := ih hone.gone
      exact ⟨seen', hone.cons hids⟩
  | case5 path id ids r hne hr ih =>
    have hs : Starts rules id := starts_of_ne hr hne
    by_cases hid : id ∈ seen
    · obtain ⟨seen', hids⟩ := ih h
      exact ⟨seen', (Goes.of_mem h hid).cons hids⟩
    · have hone := Goes.of_starts h hid hs
      obtain ⟨seen', hids⟩ := ih hone.gone
      exact ⟨seen', hone.cons hids⟩

theorem exists_goes_of_nil (rules : Array (Rule Nat π)) (ids : List Nat) : ∃ seen', Goes rules [] ids [] seen' :=
  exists_goes ⟨List.nil_subset _, List.forall_mem_nil _⟩

theorem Goes.mem_of_within (h : Goes rules [] ids seen seen') (hj : Within rules ids j) : j ∈ seen' := by
  induction hj with
  | here hj => exact h.all hj
  | inside _ hr hj ih => exact h.gone.closed _ ih List.not_mem_nil _ hr hj

/-- No rule is lost where containers on the path are not expanded again. -/
theorem mem_expansion_iff : j ∈ expansion rules ids [] ↔ Starts rules j ∧ Within rules ids j := by
  refine ⟨of_mem_expansion, fun ⟨hs, hj⟩ => ?_⟩
  obtain ⟨seen', h⟩ := exists_goes_of_nil rules ids
  have := (h.starts j hs).mp (h.mem_of_within hj)
  simpa using this

theorem expand_eq_expansion (rules : Array (Rule Nat π)) (ids : List Nat) :
    expand rules ids [] = (expansion rules ids []).eraseDups := by
  obtain ⟨seen', h⟩ := exists_goes_of_nil rules ids
  have := h.found []
  rwa [List.append_nil, fresh_nil, expand, List.append_nil] at this

end

namespace Grammar

theorem of_mem_candidatesIn {G : Grammar} {i j : Nat} (h : j ∈ G.candidatesIn i) : Starts G.rules j := by
  cases hr : G.rules[i]? with
  | none =>
    unfold candidatesIn at h
    rw [G.candidates_eq, Array.getElem?_map, hr] at h
    cases h
  | some r =>
    rw [candidatesIn_eq hr, expand_eq_expansion, List.mem_eraseDups] at h
    exact (of_mem_expansion h).1

/-- The candidates of a rule are the first occurrences in its plain expansion: each rule within
its list that may start, once. -/
theorem candidatesIn_plain (g : Grammar) {id : Nat} {r : Rule Nat Pattern} (hr : g.rules[id]? = some r) :
    g.candidatesIn id = (expansion g.rules r.patterns []).eraseDups ∧ (g.candidatesIn id).Nodup ∧
      ∀ j, j ∈ g.candidatesIn id ↔ Starts g.rules j ∧ Within g.rules r.patterns j := by
  have hplain : g.candidatesIn id = (expansion g.rules r.patterns []).eraseDups := by
    rw [candidatesIn_eq hr, expand_eq_expansion]
  refine ⟨hplain, ?_, ?_⟩
  · rw [hplain]
    exact nodup_eraseDups _
  · intro j
    rw [hplain, List.mem_eraseDups]
    exact mem_expansion_iff

end Grammar

/-! ## A container that leads back to the root -/

namespace Circle

open Grammar (GrammarSource RuleSource)

def piece (pattern : String) : RuleSource :=
  { RuleSource.empty with pattern := some pattern }

def reference (name : String) : RuleSource :=
  { RuleSource.empty with reference := some name }

def source : GrammarSource where
  name := none
  scopeName := some "s"
  patterns := [reference "#circle", piece "b"]
  repository := [("circle", { RuleSource.empty with patterns := [piece "a", reference "$self", piece "c"] })]

def grammar : Grammar where
  name := none
  scopeName := "s"
  rules := #[.container [1, 4], .container [2, 0, 3], .piece none ⟨"a", .text ['a'], 0⟩ [],
    .piece none ⟨"c", .text ['c'], 0⟩ [], .piece none ⟨"b", .text ['b'], 0⟩ []]
  candidates := #[[2, 4, 3], [2, 3, 4], [], [], []]
  candidates_eq := by cbv

theorem compile_source : Grammar.compile .backtracking source = .ok grammar := by cbv

end Circle

/-- The root comes up again inside the circle, so that its own rule comes before the last one of the circle. -/
theorem candidatesIn_plain_circle : Grammar.compile .backtracking Circle.source = .ok Circle.grammar ∧
    Circle.grammar.rules[0]? = some (.container [1, 4]) ∧
    expansion Circle.grammar.rules [1, 4] [] = [2, 4, 3, 4] ∧ Circle.grammar.candidatesIn 0 = [2, 4, 3] := by
  have hplain : expansion Circle.grammar.rules [1, 4] [] = [2, 4, 3, 4] := by cbv
  refine ⟨Circle.compile_source, rfl, hplain, ?_⟩
  have hroot : Circle.grammar.rules[0]? = some (.container [1, 4]) := rfl
  rw [(Grammar.candidatesIn_plain Circle.grammar hroot).1]
  exact congrArg List.eraseDups hplain

end Highlight
