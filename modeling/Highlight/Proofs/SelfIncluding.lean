import Highlight.Proofs.PlainNames
import Highlight.Proofs.WholeMatches

/-!
# Rules that apply inside themselves

A named rule of the grammar itself may list nothing but itself for what is inside its region.
The name leads back to the rule, so in the compiled grammar the region has its own number as
its only pattern.
-/

namespace Highlight.Grammar

namespace Place

/-- A name without strokes in the repository of the grammar has an address of its own. -/
theorem eq_of_address_named {p : Place} {name : String} (hname : '/' ∉ name.toList)
    (h : p.address = (named top name).address) : p = named top name := by
  have htop : (named top name).address = .named .root ("/" ++ name) := rfl
  rw [htop] at h
  cases p with
  | top => cases h
  | inner owner slot => cases h
  | named owner name' =>
    rcases address_named owner name' with ⟨o, path, howner, ha⟩ | ⟨_, ha⟩
    · -- the path of the owner starts with a stroke of its own
      rw [ha, Address.named.injEq] at h
      have hpath := congrArg String.toList h.2
      simp only [String.toList_append, List.append_assoc] at hpath
      cases hp : path.toList with
      | nil => exact absurd hp (path_ne_empty howner)
      | cons d ds =>
        rw [hp] at hpath
        have htail : ds ++ ("/".toList ++ name'.toList) = name.toList := (List.cons.inj hpath).2
        exact absurd (htail ▸ List.mem_append_right ds (List.mem_cons_self ..)) hname
    · rw [ha, Address.named.injEq] at h
      have hlist := congrArg String.toList h.2
      rw [String.toList_append, String.toList_append] at hlist
      rw [eq_top_of_address h.1, String.toList_inj.mp (List.append_cancel_left hlist)]

end Place

/-! ## Captures of the whole -/

/-- Sorting keeps the order among what is equal. -/
theorem filter_mergeSort {α : Type} {le : α → α → Bool} (trans : ∀ a b c, le a b = true → le b c = true → le a c = true)
    (total : ∀ a b, (le a b || le b a) = true) {p : α → Bool} (hp : ∀ a b, p a = true → p b = true → le a b = true) (l : List α) :
    (l.mergeSort le).filter p = l.filter p := by
  have hsorted : (l.filter p).Pairwise fun a b => le a b = true :=
    List.pairwise_of_forall_mem_list fun a ha b hb => hp a b (List.mem_filter.mp ha).2 (List.mem_filter.mp hb).2
  have hsub := (List.sublist_mergeSort trans total hsorted List.filter_sublist).filter p
  simp only [List.filter_filter, Bool.and_self] at hsub
  have hperm := (List.mergeSort_perm l le).filter p
  exact (hsub.eq_of_length hperm.length_eq.symm).symm

def RuleSource.ofWhole (s : RuleSource) (use : CaptureUse) (groups : List (Option String)) : List String :=
  ((s.capturesFor use).filter fun e => Text.number? e.1.toList = some 0).flatMap fun e => Scope.ofTemplate e.2.name groups

theorem captureTarget?_of_number (owner : Address) (sight : List Repository) (label : String) (use : CaptureUse) {key : String}
    (c : RuleSource) {group : Nat} (h : Text.number? key.toList = some group) :
    ∃ t, captureTarget? owner sight label use key c = some t ∧ t.1.group = group ∧ t.1.name = c.name := by
  unfold captureTarget?
  rw [h, Option.map_some]
  split
  · exact ⟨_, rfl, rfl, rfl⟩
  · exact ⟨_, rfl, rfl, rfl⟩

/-- Of the captures that are written, those count for the whole that have its number. -/
theorem ofWhole_captureTargets (n : Node) (use : CaptureUse) (groups : List (Option String)) (es : List (String × RuleSource)) :
    (((es.filterMap fun (key, c) => captureTarget? n.address n.inside n.innerLabel use key c).map (·.1)).filter
      (·.group = 0)).flatMap (fun c => Scope.ofTemplate c.name groups) =
      (es.filter fun e => Text.number? e.1.toList = some 0).flatMap fun e => Scope.ofTemplate e.2.name groups := by
  induction es with
  | nil => rfl
  | cons e es ih =>
    rw [List.filterMap_cons]
    cases hkey : Text.number? e.1.toList with
    | none =>
      have hnone : captureTarget? n.address n.inside n.innerLabel use e.1 e.2 = none := by
        unfold captureTarget?
        rw [hkey, Option.map_none]
      rw [List.filter_cons_of_neg (by simp [hkey])]
      simp only [hnone]
      exact ih
    | some group =>
      obtain ⟨t, ht, hgroup, hname⟩ := captureTarget?_of_number n.address n.inside n.innerLabel use e.2 hkey
      simp only [ht, List.map_cons]
      by_cases hzero : group = 0
      · rw [List.filter_cons_of_pos (by simpa [hgroup] using hzero), List.filter_cons_of_pos (by simpa [hkey] using hzero),
          List.flatMap_cons, List.flatMap_cons, hname, ih]
      · rw [List.filter_cons_of_neg (by simpa [hgroup] using hzero), List.filter_cons_of_neg (by simpa [hkey] using hzero), ih]

theorem ofWhole_captures (n : Node) (s : RuleSource) (use : CaptureUse) (f : Address → Nat) (groups : List (Option String)) :
    Capture.ofWhole ((n.captures s use).map (·.renumber f)) groups = s.ofWhole use groups := by
  have hsorted : (n.captures s use).filter (·.group = 0) = ((n.captureTargets s use).map (·.1)).filter (·.group = 0) :=
    filter_mergeSort (fun a b c hab hbc => by simp only [decide_eq_true_eq] at *; omega)
      (fun a b => by simp only [Bool.or_eq_true, decide_eq_true_eq]; omega)
      (fun a b ha hb => by simp only [decide_eq_true_eq] at *; omega) _
  have hrenumber : (fun c : Capture Nat => decide (c.group = 0)) ∘ (·.renumber f) = fun c : Capture Address => decide (c.group = 0) := rfl
  unfold Capture.ofWhole
  rw [List.filter_map, List.flatMap_map, hrenumber, hsorted]
  exact ofWhole_captureTargets n use groups (s.capturesFor use)

/-! ## Rules that list themselves -/

/-- A named rule of the grammar whose delimiters are texts, and inside which only it applies. -/
structure GrammarSource.Nests (src : GrammarSource) (name : String) (rule : RuleSource) (o c : String) : Prop where
  entry : src.repository.lookup name = some rule
  stroke : '/' ∉ name.toList
  reference : rule.reference = none
  pattern : rule.pattern = none
  opening : rule.opening = some (Literal.escape o)
  closing : rule.closing = some (Literal.escape c)
  contentName : rule.contentName = none
  inside : ∃ p, rule.patterns = [p] ∧ p.reference = some ("#" ++ name) ∧ p.disabled = false
  repository : rule.repository = []
  closingFirst : rule.closingLast = false
  captures : ∀ use, ∀ e ∈ rule.capturesFor use, e.2.patterns = []

def GrammarSource.numberOf (src : GrammarSource) (G : Grammar) (name : String) : Nat :=
  (src.draft G.scopeName).addresses.idxOf (Place.named .top name).address

structure SelfIncluding (G : Grammar) (engine : Engine) (id : Nat) (r : Region Nat Pattern) (rule : RuleSource)
    (o c : String) : Prop where
  name : r.name = rule.name
  contentName : r.contentName = none
  lasting : r.lasting = .untilClosed false
  opening : engine.read (Literal.escape o) = .ok r.opening
  closing : ∃ p, r.closing = .fixed p ∧ engine.read (Literal.escape c) = .ok p
  candidates : G.candidatesIn id = [id]
  openingCaptures : ∀ c ∈ r.openingCaptures, c.patterns = none
  closingCaptures : ∀ c ∈ r.closingCaptures, c.patterns = none
  openingWords : ∀ groups, Capture.ofWhole r.openingCaptures groups = rule.ofWhole .opening groups
  closingWords : ∀ groups, Capture.ofWhole r.closingCaptures groups = rule.ofWhole .closing groups

namespace GrammarSource.Nests

variable {engine : Engine} {src : GrammarSource} {G : Grammar} {name o c : String} {rule : RuleSource}

theorem site?_eq (h : src.Nests name rule o c) : src.site? (.named .top name) = some ⟨.rule rule, []⟩ := by
  show (src.repository.lookup name).map Site.ofEntry = _
  rw [h.entry, Option.map_some, Site.ofEntry, h.reference, h.repository]
  rfl

theorem node (h : src.Nests name rule o c) {r : Rule Nat Pattern} (hG : compile engine src = .ok G)
    (hr : G.rules[src.numberOf G name]? = some r) : ∃ n, (src.draft G.scopeName).nodes[src.numberOf G name]? = some n ∧
      n.body = .rule rule ∧ n.Fits src (.named .top name) := by
  obtain ⟨n, hn, _⟩ := exists_node_of_getElem? hG hr
  have haddress : n.address = (Place.named .top name).address := by
    have hmem : (Place.named .top name).address ∈ (src.draft G.scopeName).addresses := by
      rw [← List.idxOf_lt_length_iff, Draft.addresses, List.length_map]
      exact (List.getElem?_eq_some_iff.mp hn).1
    obtain ⟨n', hn', ha⟩ := getElem?_idxOf hmem
    rw [GrammarSource.numberOf, hn', Option.some.injEq] at hn
    exact hn ▸ ha
  obtain ⟨p, hfits⟩ := fits_of_mem_draft (List.mem_of_getElem? hn)
  have hp : p = .named .top name := Place.eq_of_address_named h.stroke (hfits.address.symm.trans haddress)
  subst hp
  refine ⟨n, hn, ?_, hfits⟩
  obtain ⟨site, hsite, hbody⟩ := hfits.site
  rw [h.site?_eq, Option.some.injEq] at hsite
  rw [← hbody, ← hsite]

theorem targets_eq (h : src.Nests name rule o c) {n : Node} (hn : n.Fits src (.named .top name)) :
    (n.targets rule.patterns).map (·.address) = [(Place.named .top name).address] := by
  obtain ⟨p, hp, href, hdisabled⟩ := h.inside
  have hself : ¬("#" ++ name = "$self" ∨ "#" ++ name = "$base") := by
    have hhead (s : String) (hs : s.toList.head? = some '$') : "#" ++ name ≠ s := by
      intro he
      rw [← he, String.toList_append] at hs
      exact absurd hs (by simp)
    exact fun he => he.elim (hhead _ rfl) (hhead _ rfl)
  have htarget : target? n.address n.inside n.innerLabel 0 p = resolve name n.inside := by
    unfold target? referred?
    simp only [hdisabled, href, if_neg hself, String.toList_append]
    simp
  have hsight : findIn name (src.inSight (.named .top name)) = some (.named .top name) := by
    have hchain : src.repositories (.named .top name) = [(.named .top name, []), (.top, src.repository)] := by
      rw [repositories, repositories, own_eq h.site?_eq]
      rfl
    unfold inSight
    rw [hchain]
    simp [Place.isCapture, findIn, h.entry]
  have hresolve := hn.sight.address_resolve name
  rw [hsight, ← htarget] at hresolve
  rw [hp]
  unfold Node.targets Grammar.targets
  simp only [List.zipIdx_cons, List.zipIdx_nil]
  cases ht : target? n.address n.inside n.innerLabel 0 p with
  | none =>
    rw [ht] at hresolve
    cases hresolve
  | some t =>
    rw [ht, Option.map_some, Option.map_some, Option.some.injEq] at hresolve
    rw [List.filterMap_cons, ht, ← hresolve]
    rfl

theorem captures_eq_none (h : src.Nests name rule o c) {n : Node} {use : CaptureUse} {a : Capture Address}
    (ha : a ∈ n.captures rule use) : a.patterns = none := by
  obtain ⟨m, hm⟩ := Node.mem_captures.mp ha
  obtain ⟨⟨key, source⟩, hmem, hcapture⟩ := List.mem_filterMap.mp hm
  obtain ⟨group, _, hcapture⟩ := Option.map_eq_some_iff.mp hcapture
  have hnone : source.patterns.isEmpty = true := by
    rw [h.captures use _ hmem]
    rfl
  rw [if_pos hnone] at hcapture
  cases hcapture
  rfl

theorem region (h : src.Nests name rule o c) (hG : compile engine src = .ok G) {r : Region Nat Pattern}
    (hr : G.rules[src.numberOf G name]? = some (.region r)) : G.SelfIncluding engine (src.numberOf G name) r rule o c := by
  obtain ⟨n, hn, hb, hfits⟩ := h.node hG hr
  obtain ⟨opening, closing, hopening, hclosing, hr'⟩ := getElem?_region hG hn hb h.pattern h.opening h.closing
  rw [hr, Option.some.injEq, Rule.region.injEq] at hr'
  subst hr'
  have hcaptures (use : CaptureUse) (f : Address → Nat) (a : Capture Nat) (ha : a ∈ (n.captures rule use).map (·.renumber f)) :
      a.patterns = none := by
    obtain ⟨a', ha', rfl⟩ := List.mem_map.mp ha
    rw [Capture.renumber, h.captures_eq_none ha']
    rfl
  have hfixed : ∃ p, closing = .fixed p ∧ engine.read (Literal.escape c) = .ok p := by
    unfold Closing.ofSource at hclosing
    rw [if_neg (by rw [Literal.hasBackReferences_escape]; decide)] at hclosing
    obtain ⟨p, hp, rfl⟩ := Results.map_eq_ok.mp hclosing
    exact ⟨p, rfl, Results.mapError_eq_ok.mp hp⟩
  have hcandidates : G.candidatesIn (src.numberOf G name) = [src.numberOf G name] := by
    rw [candidatesIn_eq hr]
    show expand G.rules (((n.targets rule.patterns).map (·.address)).map _) [] = _
    rw [h.targets_eq hfits]
    show expand G.rules [src.numberOf G name] [] = _
    rw [expand, if_neg List.not_mem_nil]
    -- the rule is a region, so its number is not expanded further
    split
    · rename_i hnone
      rw [hr] at hnone
      cases hnone
    · rename_i inner hcontainer
      rw [hr] at hcontainer
      cases hcontainer
    · rw [expand]
  exact {
    name := rfl
    contentName := h.contentName
    lasting := congrArg Lasting.untilClosed h.closingFirst
    opening := hopening
    closing := hfixed
    candidates := hcandidates
    openingCaptures := hcaptures _ _
    closingCaptures := hcaptures _ _
    openingWords := ofWhole_captures n rule _ _
    closingWords := ofWhole_captures n rule _ _ }

end GrammarSource.Nests

end Highlight.Grammar
