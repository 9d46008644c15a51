import Highlight.Proofs.PlainNames
import Highlight.Proofs.Results
import Highlight.Proofs.Seen
import Mathlib.Data.List.Pairwise
import Mathlib.Logic.Relation

/-!
# Captures in another order

The captures of a rule come in no order of their own. Where no two captures of a rule are for
the same group, and no name holds a stroke, the rule that is seen at a place does not depend on
the orders in which the captures are taken: those of a rule are sorted, and a capture is known
by its key.
-/

namespace Highlight.Grammar

/-! ## Reordered grammars -/

inductive SameName {α : Type} (R : α → α → Prop) : String × α → String × α → Prop
  | mk {name : String} {a b : α} : R a b → SameName R (name, a) (name, b)

/-- The second list is the first one in another order, with related things for its own. -/
inductive Shuffled {α : Type} (R : α → α → Prop) : List α → List α → Prop
  | nil : Shuffled R [] []
  | insert {a b : α} {l before after : List α} : R a b → Shuffled R l (before ++ after) →
    Shuffled R (a :: l) (before ++ b :: after)

/-- The rules are the same but for the order in each map of captures. -/
inductive RuleSource.Reordered : RuleSource → RuleSource → Prop
  | mk {s s' : RuleSource} : s'.reference = s.reference → s'.pattern = s.pattern → s'.opening = s.opening →
    s'.closing = s.closing → s'.condition = s.condition → s'.name = s.name → s'.contentName = s.contentName →
    Shuffled (SameName Reordered) s.captures s'.captures →
    Shuffled (SameName Reordered) s.openingCaptures s'.openingCaptures →
    Shuffled (SameName Reordered) s.closingCaptures s'.closingCaptures →
    Shuffled (SameName Reordered) s.conditionCaptures s'.conditionCaptures →
    List.Forall₂ Reordered s.patterns s'.patterns →
    List.Forall₂ (SameName Reordered) s.repository s'.repository →
    s'.closingLast = s.closingLast → s'.disabled = s.disabled → Reordered s s'

structure GrammarSource.Reordered (g g' : GrammarSource) : Prop where
  name : g'.name = g.name
  scopeName : g'.scopeName = g.scopeName
  patterns : List.Forall₂ RuleSource.Reordered g.patterns g'.patterns
  repository : List.Forall₂ (SameName RuleSource.Reordered) g.repository g'.repository

inductive RuleSource.Everywhere (P : RuleSource → Prop) : RuleSource → Prop
  | mk {s : RuleSource} : P s → (∀ t ∈ s.patterns, Everywhere P t) → (∀ e ∈ s.repository, Everywhere P e.2) →
    (∀ use, ∀ e ∈ s.capturesFor use, Everywhere P e.2) → Everywhere P s

def GroupsApart (entries : Entries) : Prop :=
  (entries.map (·.1)).Pairwise fun key key' => ∀ k, Text.number? key.toList = some k → Text.number? key'.toList ≠ some k

structure RuleSource.Distinct (s : RuleSource) : Prop where
  names : ∀ e ∈ s.repository, '/' ∉ e.1.toList
  groups : ∀ use, GroupsApart (s.capturesFor use)

structure GrammarSource.Distinct (g : GrammarSource) : Prop where
  names : ∀ e ∈ g.repository, '/' ∉ e.1.toList
  patterns : ∀ s ∈ g.patterns, s.Everywhere RuleSource.Distinct
  repository : ∀ e ∈ g.repository, e.2.Everywhere RuleSource.Distinct

/-! ## Related lists -/

section

variable {α β : Type} {R : α → α → Prop} {l m n : List α}

theorem Shuffled.exists_perm (h : Shuffled R l n) : ∃ m, List.Forall₂ R l m ∧ m.Perm n := by
  induction h with
  | nil => exact ⟨[], .nil, .nil⟩
  | @insert a b l before after hab _ ih =>
    obtain ⟨m, hm, hperm⟩ := ih
    exact ⟨b :: m, .cons hab hm, (hperm.cons b).trans List.perm_middle.symm⟩

theorem Shuffled.of_perm (h : List.Forall₂ R l m) : ∀ {n : List α}, m.Perm n → Shuffled R l n := by
  induction h with
  | nil =>
    intro n hperm
    obtain rfl := hperm.nil_eq
    exact .nil
  | @cons a b l m hab _ ih =>
    intro n hperm
    obtain ⟨before, after, rfl⟩ := List.append_of_mem (hperm.mem_iff.mp (List.mem_cons_self ..))
    exact .insert hab (ih (hperm.trans List.perm_middle).cons_inv)

theorem Shuffled.exists_mem (h : Shuffled R l n) {b : α} (hb : b ∈ n) : ∃ a ∈ l, R a b := by
  obtain ⟨m, hm, hperm⟩ := h.exists_perm
  exact Results.exists_of_forall₂ hm (hperm.mem_iff.mpr hb)

theorem Shuffled.isEmpty_eq (h : Shuffled R l n) : n.isEmpty = l.isEmpty := by
  cases h with
  | nil => rfl
  | @insert a b l before after _ _ =>
    cases before with
    | nil => rfl
    | cons c before => rfl

theorem forall₂_isEmpty {l' : List β} {S : α → β → Prop} (h : List.Forall₂ S l l') : l'.isEmpty = l.isEmpty := by
  cases h with
  | nil => rfl
  | cons _ _ => rfl

theorem rel_getElem? {S : α → β → Prop} {l' : List β} (h : List.Forall₂ S l l') :
    ∀ i : Nat, Option.Rel S l[i]? l'[i]? := by
  induction h with
  | nil => exact fun i => .none
  | cons hab _ ih =>
    intro i
    cases i with
    | zero => exact .some hab
    | succ i => exact ih i

theorem rel_lookup {l l' : List (String × α)} (h : List.Forall₂ (SameName R) l l') (name : String) :
    Option.Rel R (l.lookup name) (l'.lookup name) := by
  induction h with
  | nil => exact .none
  | cons he _ ih =>
    obtain ⟨hab⟩ := he
    rw [List.lookup_cons, List.lookup_cons]
    split
    · exact .some hab
    · exact ih

theorem rel_find? {S : α → β → Prop} {l' : List β} {p : α → Bool} {q : β → Bool} (hpq : ∀ a b, S a b → q b = p a)
    (h : List.Forall₂ S l l') : Option.Rel S (l.find? p) (l'.find? q) := by
  induction h with
  | nil => exact .none
  | @cons a b l l' hab _ ih =>
    rw [List.find?_cons, List.find?_cons, hpq a b hab]
    cases p a with
    | true => exact .some hab
    | false => exact ih

/-- In whatever order, what is found is the only one there is. -/
theorem find?_eq_of_perm {p : α → Bool} (h : m.Perm n) (hone : m.Pairwise fun a b => ¬(p a = true ∧ p b = true)) :
    m.find? p = n.find? p := by
  induction h with
  | nil => rfl
  | cons a _ ih => rw [List.find?_cons, List.find?_cons, ih (List.pairwise_cons.mp hone).2]
  | swap a b l =>
    have hboth := (List.pairwise_cons.mp hone).1 a (List.mem_cons_self ..)
    rw [List.find?_cons, List.find?_cons, List.find?_cons, List.find?_cons]
    cases ha : p a with
    | false => rfl
    | true =>
      cases hb : p b with
      | false => rfl
      | true => exact absurd ⟨hb, ha⟩ hboth
  | trans hperm _ ih ih' =>
    exact (ih hone).trans (ih' (hperm.pairwise hone fun h h' => h h'.symm))

theorem filterMap_eq_of_forall₂ {γ : Type} {S : α → β → Prop} {f : α → Option γ} {f' : β → Option γ}
    (hf : ∀ a b, S a b → f' b = f a) {l' : List β} (h : List.Forall₂ S l l') : l'.filterMap f' = l.filterMap f := by
  induction h with
  | nil => rfl
  | cons hab _ ih => rw [List.filterMap_cons, List.filterMap_cons, hf _ _ hab, ih]

theorem forall₂_zipIdx {S : α → β → Prop} {l' : List β} (h : List.Forall₂ S l l') :
    ∀ k, List.Forall₂ (fun x y => S x.1 y.1 ∧ x.2 = y.2) (l.zipIdx k) (l'.zipIdx k) := by
  induction h with
  | nil => exact fun k => .nil
  | cons hab _ ih => exact fun k => .cons ⟨hab, rfl⟩ (ih (k + 1))

end

theorem rel_bind {α β γ δ : Type} {R : α → β → Prop} {S : γ → δ → Prop} {x : Option α} {y : Option β}
    (h : Option.Rel R x y) {f : α → Option γ} {f' : β → Option δ}
    (hf : ∀ a b, x = some a → R a b → Option.Rel S (f a) (f' b)) : Option.Rel S (x.bind f) (y.bind f') := by
  cases h with
  | none => exact .none
  | some hab => exact hf _ _ rfl hab

theorem rel_map {α β γ δ : Type} {R : α → β → Prop} {S : γ → δ → Prop} {x : Option α} {y : Option β}
    (h : Option.Rel R x y) {f : α → γ} {f' : β → δ} (hf : ∀ a b, R a b → S (f a) (f' b)) :
    Option.Rel S (x.map f) (y.map f') := by
  cases h with
  | none => exact .none
  | some hab => exact .some (hf _ _ hab)

theorem rel_toList {α β : Type} {R : α → β → Prop} {x : Option α} {y : Option β} (h : Option.Rel R x y) :
    List.Forall₂ R x.toList y.toList := by
  cases h with
  | none => exact .nil
  | some hab => exact .cons hab .nil

/-! ## Rules -/

theorem RuleSource.shape_eq {s s' : RuleSource} (hpattern : s'.pattern = s.pattern) (hopening : s'.opening = s.opening)
    (hclosing : s'.closing = s.closing) (hcondition : s'.condition = s.condition) (hlast : s'.closingLast = s.closingLast) :
    s'.shape = s.shape := by
  unfold RuleSource.shape
  rw [hpattern, hopening, hclosing, hcondition, hlast]

/-- Maps that are related in pairs, each empty where the other is, are related in each use. -/
theorem RuleSource.rel_capturesFor {P : Entries → Entries → Prop} (hempty : ∀ own own', P own own' → own'.isEmpty = own.isEmpty)
    {s s' : RuleSource} (hcaptures : P s.captures s'.captures) (hopening : P s.openingCaptures s'.openingCaptures)
    (hclosing : P s.closingCaptures s'.closingCaptures) (hcondition : P s.conditionCaptures s'.conditionCaptures)
    (use : CaptureUse) : P (s.capturesFor use) (s'.capturesFor use) := by
  have hown (own own' : Entries) (h : P own own') :
      P (if own.isEmpty then s.captures else own) (if own'.isEmpty then s'.captures else own') := by
    rw [hempty own own' h]
    by_cases hnone : own.isEmpty = true
    · rw [if_pos hnone, if_pos hnone]
      exact hcaptures
    · rw [if_neg hnone, if_neg hnone]
      exact h
  cases use with
  | piece => exact hown _ _ hcaptures
  | opening => exact hown _ _ hopening
  | closing => exact hown _ _ hclosing
  | condition => exact hown _ _ hcondition

namespace RuleSource.Reordered

variable {s s' : RuleSource}

theorem reference : s.Reordered s' → s'.reference = s.reference
  | .mk h _ _ _ _ _ _ _ _ _ _ _ _ _ _ => h

theorem names : s.Reordered s' → s'.name = s.name ∧ s'.contentName = s.contentName
  | .mk _ _ _ _ _ h h' _ _ _ _ _ _ _ _ => ⟨h, h'⟩

theorem disabled : s.Reordered s' → s'.disabled = s.disabled
  | .mk _ _ _ _ _ _ _ _ _ _ _ _ _ _ h => h

theorem patterns : s.Reordered s' → List.Forall₂ Reordered s.patterns s'.patterns
  | .mk _ _ _ _ _ _ _ _ _ _ _ h _ _ _ => h

theorem repository : s.Reordered s' → List.Forall₂ (SameName Reordered) s.repository s'.repository
  | .mk _ _ _ _ _ _ _ _ _ _ _ _ h _ _ => h

theorem shape : s.Reordered s' → s'.shape = s.shape
  | .mk _ hpattern hopening hclosing hcondition _ _ _ _ _ _ _ _ hlast _ =>
    shape_eq hpattern hopening hclosing hcondition hlast

theorem capturesFor : s.Reordered s' → ∀ use, Shuffled (SameName Reordered) (s.capturesFor use) (s'.capturesFor use)
  | .mk _ _ _ _ _ _ _ hcaptures hopening hclosing hcondition _ _ _ _ =>
    rel_capturesFor (fun _ _ h => h.isEmpty_eq) hcaptures hopening hclosing hcondition

end RuleSource.Reordered

theorem map_fst_of_sameName {R : RuleSource → RuleSource → Prop} {entries entries' : Entries}
    (h : List.Forall₂ (SameName R) entries entries') : entries'.map (·.1) = entries.map (·.1) := by
  induction h with
  | nil => rfl
  | cons he _ ih =>
    obtain ⟨_⟩ := he
    rw [List.map_cons, List.map_cons, ih]

theorem names_of_sameName {R : RuleSource → RuleSource → Prop} {entries entries' : Entries}
    (h : List.Forall₂ (SameName R) entries entries') (hnames : ∀ e ∈ entries, '/' ∉ e.1.toList) :
    ∀ e ∈ entries', '/' ∉ e.1.toList := by
  intro e he
  obtain ⟨d, hd, hde⟩ := Results.exists_of_forall₂ h he
  obtain ⟨_⟩ := hde
  have := hnames _ hd
  exact this

namespace GroupsApart

variable {R : RuleSource → RuleSource → Prop} {entries entries' : Entries}

theorem sameName (h : GroupsApart entries) (hs : List.Forall₂ (SameName R) entries entries') : GroupsApart entries' := by
  unfold GroupsApart
  rw [map_fst_of_sameName hs]
  exact h

theorem shuffled (h : GroupsApart entries) (hs : Shuffled (SameName R) entries entries') : GroupsApart entries' := by
  obtain ⟨m, hm, hperm⟩ := hs.exists_perm
  exact (hperm.map _).pairwise (h.sameName hm) fun hab k hb ha => hab k ha hb

/-- At most one of the captures has a key that is a number. -/
theorem pairwise_key (h : GroupsApart entries) {key : String} (hkey : (Text.number? key.toList).isSome) :
    entries.Pairwise fun d e => ¬(d.1 = key ∧ e.1 = key) := by
  obtain ⟨k, hk⟩ := Option.isSome_iff_exists.mp hkey
  refine (List.pairwise_map.mp h).imp fun hapart hboth => ?_
  rw [hboth.1, hboth.2] at hapart
  exact hapart k hk hk

end GroupsApart

namespace RuleSource.Everywhere

variable {P : RuleSource → Prop} {s : RuleSource}

theorem here : s.Everywhere P → P s
  | .mk h _ _ _ => h

theorem patterns : s.Everywhere P → ∀ t ∈ s.patterns, t.Everywhere P
  | .mk _ h _ _ => h

theorem repository : s.Everywhere P → ∀ e ∈ s.repository, e.2.Everywhere P
  | .mk _ _ h _ => h

theorem captures : s.Everywhere P → ∀ use, ∀ e ∈ s.capturesFor use, e.2.Everywhere P
  | .mk _ _ _ h => h

theorem reordered (h : s.Everywhere Distinct) {s' : RuleSource} (hs : s.Reordered s') : s'.Everywhere Distinct := by
  induction h generalizing s' with
  | mk hhere _ _ _ ihpatterns ihrepository ihcaptures =>
    refine .mk ⟨names_of_sameName hs.repository hhere.names, fun use => (hhere.groups use).shuffled (hs.capturesFor use)⟩
      ?_ ?_ ?_
    · intro t ht
      obtain ⟨u, hu, hut⟩ := Results.exists_of_forall₂ hs.patterns ht
      exact ihpatterns u hu hut
    · intro e he
      obtain ⟨d, hd, hde⟩ := Results.exists_of_forall₂ hs.repository he
      obtain ⟨hde⟩ := hde
      exact ihrepository _ hd hde
    · intro use e he
      obtain ⟨d, hd, hde⟩ := (hs.capturesFor use).exists_mem he
      obtain ⟨hde⟩ := hde
      exact ihcaptures use _ hd hde

end RuleSource.Everywhere

variable {g g' : GrammarSource} {p q : Place}

theorem GrammarSource.Distinct.reordered (hg : g.Distinct) (hr : g.Reordered g') : g'.Distinct where
  names := names_of_sameName hr.repository hg.names
  patterns s hs := by
    obtain ⟨t, ht, hts⟩ := Results.exists_of_forall₂ hr.patterns hs
    exact (hg.patterns t ht).reordered hts
  repository e he := by
    obtain ⟨d, hd, hde⟩ := Results.exists_of_forall₂ hr.repository he
    obtain ⟨hde⟩ := hde
    exact (hg.repository _ hd).reordered hde

/-! ## Sites -/

def Body.Everywhere (P : RuleSource → Prop) : Body → Prop
  | group ps => ∀ t ∈ ps, t.Everywhere P
  | rule s => s.Everywhere P

structure Site.Distinct (site : Site) : Prop where
  body : site.body.Everywhere RuleSource.Distinct
  names : ∀ e ∈ site.repository, '/' ∉ e.1.toList
  repository : ∀ e ∈ site.repository, e.2.Everywhere RuleSource.Distinct

theorem RuleSource.Everywhere.site {s : RuleSource} (h : s.Everywhere Distinct) : Site.Distinct ⟨.rule s, s.repository⟩ :=
  ⟨h, h.here.names, h.repository⟩

theorem Body.Everywhere.patterns {P : RuleSource → Prop} {b : Body} (h : b.Everywhere P) :
    ∀ t ∈ b.patterns, t.Everywhere P := by
  cases b with
  | group ps => exact h
  | rule s => exact RuleSource.Everywhere.patterns h

theorem RuleSource.Everywhere.ofEntry {s : RuleSource} (h : s.Everywhere Distinct) : (Site.ofEntry s).Distinct := by
  unfold Site.ofEntry
  by_cases href : s.reference.isSome = true
  · rw [if_pos href]
    exact ⟨fun t ht => List.mem_singleton.mp ht ▸ h, List.forall_mem_nil _, List.forall_mem_nil _⟩
  · rw [if_neg href]
    exact h.site

theorem GrammarSource.Distinct.site? (hg : g.Distinct) {site : Site} (h : g.site? p = some site) : site.Distinct := by
  refine of_site? (S := Site.Distinct) ⟨hg.patterns, hg.names, hg.repository⟩ ?_ ?_ ?_ h
  · exact fun site hsite e he => (hsite.repository e he).ofEntry
  · exact fun site hsite s hs => (hsite.body.patterns s hs).site
  · intro site hsite s hb use e he
    have hbody := hsite.body
    rw [hb] at hbody
    have hsource := RuleSource.Everywhere.captures hbody use e he
    exact ⟨hsource.patterns, hsource.here.names, hsource.repository⟩

theorem GrammarSource.Distinct.keysApart (hg : g.Distinct) : g.KeysApart := by
  refine keysApart_of_names fun owner name h => ?_
  obtain ⟨site, s, hsite, hmem⟩ := exists_entry h
  exact (hg.site? hsite).names _ hmem

/-! ## Captures of reordered rules -/

section

variable {s s' : RuleSource} {use : CaptureUse} {key : String}

theorem capture?_reordered (h : s.Reordered s') (p : Place) (use : CaptureUse) (key : String) :
    p.capture? use key s' = p.capture? use key s := by
  unfold Place.capture?
  rw [h.names.1, forall₂_isEmpty h.patterns]

theorem pairwise_groups {entries : Entries} (h : GroupsApart entries) (p : Place) (use : CaptureUse) :
    (entries.filterMap fun e => p.capture? use e.1 e.2).Pairwise fun c d => c.group ≠ d.group := by
  have hgroup {e : String × RuleSource} {c : Capture Place} (hc : p.capture? use e.1 e.2 = some c) :
      Text.number? e.1.toList = some c.group := by
    obtain ⟨group, hgroup, rfl⟩ := Option.map_eq_some_iff.mp hc
    exact hgroup
  rw [List.pairwise_filterMap]
  refine (List.pairwise_map.mp h).imp fun hapart c hc d hd he => ?_
  exact hapart _ (hgroup hc) (he ▸ hgroup hd)

theorem pairwise_mergeSort {ι : Type} (cs : List (Capture ι)) :
    (cs.mergeSort fun a b => a.group ≤ b.group).Pairwise fun c d => c.group ≤ d.group := by
  refine (List.pairwise_mergeSort ?_ ?_ cs).imp of_decide_eq_true
  · intro a b c hab hbc
    simp only [decide_eq_true_eq] at *
    omega
  · intro a b
    simp only [Bool.or_eq_true, decide_eq_true_eq]
    omega

/-- Captures for different groups are sorted in one way. -/
theorem mergeSort_eq_of_perm {cs ds : List (Capture Place)} (hperm : cs.Perm ds)
    (hapart : cs.Pairwise fun c d => c.group ≠ d.group) :
    cs.mergeSort (fun a b => a.group ≤ b.group) = ds.mergeSort fun a b => a.group ≤ b.group := by
  have : Std.Symm fun c d : Capture Place => c.group ≠ d.group := ⟨fun _ _ => Ne.symm⟩
  have hsorted : (cs.mergeSort fun a b => a.group ≤ b.group).Perm (ds.mergeSort fun a b => a.group ≤ b.group) :=
    (List.mergeSort_perm ..).trans (hperm.trans (List.mergeSort_perm ..).symm)
  refine List.Perm.eq_of_pairwise (fun a b ha hb hab hba => ?_) (pairwise_mergeSort cs) (pairwise_mergeSort ds) hsorted
  -- two captures for one group are the same capture
  by_contra hne
  have ha := List.mem_mergeSort.mp ha
  have hb := hperm.mem_iff.mpr (List.mem_mergeSort.mp hb)
  exact hapart.forall ha hb hne (Nat.le_antisymm hab hba)

theorem captures_reordered (h : s.Reordered s') (hs : GroupsApart (s.capturesFor use)) (p : Place) :
    p.captures s' use = p.captures s use := by
  obtain ⟨m, hm, hperm⟩ := (h.capturesFor use).exists_perm
  have hsame : m.filterMap (fun e => p.capture? use e.1 e.2) =
      (s.capturesFor use).filterMap fun e => p.capture? use e.1 e.2 := by
    refine filterMap_eq_of_forall₂ ?_ hm
    rintro _ _ ⟨he⟩
    exact capture?_reordered he p use _
  have hcaptures := mergeSort_eq_of_perm (hperm.filterMap fun e => p.capture? use e.1 e.2)
    (hsame ▸ pairwise_groups hs p use)
  rw [hsame] at hcaptures
  exact hcaptures.symm

end

/-! ## Sites of reordered grammars -/

inductive Body.Reordered : Body → Body → Prop
  | group {ps ps' : List RuleSource} : List.Forall₂ RuleSource.Reordered ps ps' → Reordered (.group ps) (.group ps')
  | rule {s s' : RuleSource} : s.Reordered s' → Reordered (.rule s) (.rule s')

structure Site.Reordered (site site' : Site) : Prop where
  body : site.body.Reordered site'.body
  repository : List.Forall₂ (SameName RuleSource.Reordered) site.repository site'.repository

namespace Body.Reordered

variable {b b' : Body}

theorem patterns (h : b.Reordered b') : List.Forall₂ RuleSource.Reordered b.patterns b'.patterns := by
  cases h with
  | group hps => exact hps
  | rule hs => exact RuleSource.Reordered.patterns hs

end Body.Reordered

namespace Site.Reordered

variable {site site' : Site}

theorem ofEntry {s s' : RuleSource} (h : s.Reordered s') : (Site.ofEntry s).Reordered (Site.ofEntry s') := by
  unfold Site.ofEntry
  rw [h.reference]
  by_cases href : s.reference.isSome = true
  · rw [if_pos href, if_pos href]
    exact ⟨.group (.cons h .nil), .nil⟩
  · rw [if_neg href, if_neg href]
    exact ⟨.rule h, h.repository⟩

theorem named? (h : site.Reordered site') (name : String) :
    Option.Rel Site.Reordered (site.named? name) (site'.named? name) :=
  rel_map (rel_lookup h.repository name) fun _ _ hs => ofEntry hs

theorem pattern? (h : site.Reordered site') (index : Nat) :
    Option.Rel Site.Reordered (site.pattern? index) (site'.pattern? index) := by
  have hbind (site : Site) : site.pattern? index = site.body.patterns[index]?.bind fun s =>
      if s.disabled = false ∧ s.reference = none then some ⟨.rule s, s.repository⟩ else none := by
    unfold Site.pattern?
    cases site.body.patterns[index]? with
    | none => rfl
    | some s => rfl
  rw [hbind, hbind]
  refine rel_bind (rel_getElem? h.body.patterns index) fun s s' _ hs => ?_
  simp only [hs.disabled, hs.reference]
  split
  · exact .some ⟨.rule hs, hs.repository⟩
  · exact .none

theorem capture? (h : site.Reordered site') (hd : site.Distinct) (use : CaptureUse) {key : String}
    (hkey : (Text.number? key.toList).isSome) :
    Option.Rel Site.Reordered (site.capture? use key) (site'.capture? use key) := by
  obtain ⟨body, repository⟩ := site
  obtain ⟨body', repository'⟩ := site'
  have hbody := hd.body
  cases h.body with
  | group _ => exact .none
  | @rule s s' hs =>
    obtain ⟨m, hm, hperm⟩ := (hs.capturesFor use).exists_perm
    have hfind : Option.Rel (SameName RuleSource.Reordered)
        ((s.capturesFor use).find? fun e => e.1 = key ∧ e.2.patterns.isEmpty = false)
        (m.find? fun e => e.1 = key ∧ e.2.patterns.isEmpty = false) := by
      refine rel_find? ?_ hm
      rintro _ _ ⟨he⟩
      simp only [forall₂_isEmpty he.patterns]
    -- at most one capture has this key, which is a number
    have hone : m.Pairwise fun d e => ¬(decide (d.1 = key ∧ d.2.patterns.isEmpty = false) = true ∧
        decide (e.1 = key ∧ e.2.patterns.isEmpty = false) = true) := by
      have hapart := (RuleSource.Everywhere.here hbody).groups use
      refine ((hapart.sameName hm).pairwise_key hkey).imp fun hkeys hboth => hkeys ?_
      simp only [decide_eq_true_eq] at hboth
      exact ⟨hboth.1.1, hboth.2.1⟩
    rw [find?_eq_of_perm hperm hone] at hfind
    refine rel_map hfind ?_
    rintro _ _ ⟨he⟩
    exact ⟨.group he.patterns, he.repository⟩

end Site.Reordered

/-! ## Rules seen in reordered grammars -/

def Place.Numeric : Place → Prop
  | top => True
  | named owner _ => owner.Numeric
  | inner owner (.pattern _) => owner.Numeric
  | inner owner (.capture _ key) => owner.Numeric ∧ (Text.number? key.toList).isSome

def SameEntries (e e' : Place × Entries) : Prop :=
  e'.1 = e.1 ∧ List.Forall₂ (SameName RuleSource.Reordered) e.2 e'.2

theorem findIn_eq {name : String} {chain chain' : List (Place × Entries)} (h : List.Forall₂ SameEntries chain chain') :
    findIn name chain' = findIn name chain := by
  induction h with
  | nil => rfl
  | @cons e e' _ _ he _ ih =>
    obtain ⟨p, entries⟩ := e
    obtain ⟨p', entries'⟩ := e'
    obtain ⟨hp, hentries⟩ := he
    simp only at hp hentries
    have hsome : (entries'.lookup name).isSome = (entries.lookup name).isSome := by
      have hrel := rel_lookup hentries name
      generalize entries.lookup name = x at hrel
      generalize entries'.lookup name = y at hrel
      cases hrel with
      | none => rfl
      | some _ => rfl
    rw [findIn, findIn, hsome, hp, ih]

theorem meantIn_eq {chain chain' : List (Place × Entries)} (h : List.Forall₂ SameEntries chain chain') (p : Place)
    (index : Nat) {s s' : RuleSource} (hs : s.Reordered s') : meantIn chain' p index s' = meantIn chain p index s := by
  rw [meantIn_congr (fun name => findIn_eq h) index s']
  unfold meantIn
  rw [hs.disabled, hs.reference]

namespace GrammarSource.Reordered

variable (hr : g.Reordered g') (hg : g.Distinct)
include hr hg

theorem site? : ∀ {p : Place}, p.Numeric → Option.Rel Site.Reordered (g.site? p) (g'.site? p) := by
  intro p
  induction p with
  | top => exact fun _ => .some ⟨.group hr.patterns, hr.repository⟩
  | named owner name ih => exact fun hp => rel_bind (ih hp) fun site site' _ h => h.named? name
  | inner owner slot ih =>
    cases slot with
    | pattern index => exact fun hp => rel_bind (ih hp) fun site site' _ h => h.pattern? index
    -- which capture has the key is told by the key only where captures are for different groups
    | capture use key => exact fun hp => rel_bind (ih hp.1) fun site site' hs h => h.capture? (hg.site? hs) use hp.2

/-- The repositories around a place are the same, as far as names tell. -/
theorem repositories : ∀ {p : Place}, p.Numeric → List.Forall₂ SameEntries (g.repositories p) (g'.repositories p) := by
  have hown {p : Place} (hp : p.Numeric) : List.Forall₂ SameEntries (g.own p) (g'.own p) := by
    unfold own
    rw [List.forall₂_map_left_iff, List.forall₂_map_right_iff]
    exact (rel_toList (hr.site? hg hp)).imp fun _ _ h => ⟨rfl, h.repository⟩
  intro p
  induction p with
  | top => exact fun hp => hown hp
  | named owner name ih => exact fun hp => List.rel_append (hown hp) (ih hp)
  | inner owner slot ih =>
    intro hp
    refine List.rel_append (hown hp) (ih ?_)
    cases slot with
    | pattern index => exact hp
    | capture use key => exact hp.1

theorem inSight {p : Place} (hp : p.Numeric) : List.Forall₂ SameEntries (g.inSight p) (g'.inSight p) := by
  refine List.rel_filter ?_ (hr.repositories hg hp)
  intro e e' he
  simp only [he.1]

theorem seen {p : Place} (hp : p.Numeric) {ps ps' : List RuleSource} (hps : List.Forall₂ RuleSource.Reordered ps ps') :
    g'.seen p ps' = g.seen p ps := by
  unfold GrammarSource.seen
  refine filterMap_eq_of_forall₂ ?_ (forall₂_zipIdx hps 0)
  rintro ⟨s, index⟩ ⟨s', index'⟩ ⟨hs, hindex⟩
  simp only at hs hindex ⊢
  rw [← hindex]
  exact meantIn_eq (hr.inSight hg hp) p index hs

theorem seenAt {p : Place} (hp : p.Numeric) {b b' : Body} (h : b.Reordered b') (hb : b.Everywhere RuleSource.Distinct) :
    g'.seenAt p b' = g.seenAt p b := by
  unfold GrammarSource.seenAt Body.toRule
  cases h with
  | group hps => exact congrArg Rule.container (hr.seen hg hp hps)
  | @rule s s' hs =>
    have hpatterns := hr.seen hg hp hs.patterns
    have hcaptures (use : CaptureUse) : p.captures s' use = p.captures s use :=
      captures_reordered hs ((RuleSource.Everywhere.here hb).groups use) p
    simp only [hs.shape, hs.names.1, hs.names.2, hpatterns, hcaptures]

/-- Where captures are for groups, the rule that is seen at a place is the same. -/
theorem seenRule {p : Place} (hp : p.Numeric) : g'.seenRule p = g.seenRule p := by
  have hrel := hr.site? hg hp
  cases hs : g.site? p with
  | none =>
    cases hs' : g'.site? p with
    | none =>
      unfold GrammarSource.seenRule
      rw [hs, hs']
    | some site' =>
      rw [hs, hs'] at hrel
      cases hrel
  | some site =>
    cases hs' : g'.site? p with
    | none =>
      rw [hs, hs'] at hrel
      cases hrel
    | some site' =>
      rw [hs, hs'] at hrel
      cases hrel with
      | some hsite =>
        rw [seenRule_eq hs, seenRule_eq hs']
        exact hr.seenAt hg hp hsite.body (hg.site? hs).body

end GrammarSource.Reordered

/-! ## What is reached -/

namespace Place.Numeric

theorem of_mem_repositories : ∀ {p : Place}, p.Numeric → ∀ e ∈ g.repositories p, e.1.Numeric := by
  have hown {p : Place} (hp : p.Numeric) : ∀ e ∈ g.own p, e.1.Numeric := by
    intro e he
    obtain ⟨site, _, rfl⟩ := List.mem_map.mp he
    exact hp
  have happend {p owner : Place} (hp : p.Numeric) (howner : ∀ e ∈ g.repositories owner, e.1.Numeric)
      (e : Place × Entries) (he : e ∈ g.own p ++ g.repositories owner) : e.1.Numeric := by
    rcases List.mem_append.mp he with he | he
    · exact hown hp e he
    · exact howner e he
  intro p
  induction p with
  | top => exact fun hp => hown hp
  | named owner name ih => exact fun hp => happend hp (ih hp)
  | inner owner slot ih =>
    cases slot with
    | pattern index => exact fun hp => happend hp (ih hp)
    | capture use key => exact fun hp => happend hp (ih hp.1)

theorem of_mem_seenRule (hp : p.Numeric) (hq : q ∈ (g.seenRule p).keys) : q.Numeric := by
  cases hs : g.site? p with
  | none =>
    rw [GrammarSource.seenRule, hs] at hq
    cases hq
  | some site =>
    rw [GrammarSource.seenRule_eq hs] at hq
    rcases Body.of_mem_keys_toRule hq with hq | ⟨s, use, key, source, _, _, hkey, _, rfl⟩
    · obtain ⟨⟨s, index⟩, _, hq⟩ := List.mem_filterMap.mp hq
      rcases of_meantIn hq with rfl | ⟨owner, entries, name, hmem, _, rfl⟩ | ⟨_, _, rfl⟩
      · trivial
      · exact of_mem_repositories hp _ (GrammarSource.inSight_subset p hmem)
      · exact hp
    · exact ⟨hp, hkey⟩

end Place.Numeric

def GrammarSource.Reached (g : GrammarSource) : Place → Prop :=
  Relation.ReflTransGen (fun p q => q ∈ (g.seenRule p).keys) .top

theorem GrammarSource.Reached.numeric (h : g.Reached p) : p.Numeric := by
  induction h with
  | refl => trivial
  | tail _ hq ih => exact ih.of_mem_seenRule hq

namespace GrammarSource.Reordered

variable (hr : g.Reordered g') (hg : g.Distinct)
include hr hg

theorem reached_iff : g'.Reached p ↔ g.Reached p := by
  constructor
  · intro h
    induction h with
    | refl => exact .refl
    | tail _ hq ih => exact ih.tail (hr.seenRule hg ih.numeric ▸ hq)
  · intro h
    induction h with
    | refl => exact .refl
    | @tail p q hp hq ih =>
      have hnumeric := GrammarSource.Reached.numeric hp
      rw [← hr.seenRule hg hnumeric] at hq
      exact ih.tail hq

end GrammarSource.Reordered

end Highlight.Grammar
