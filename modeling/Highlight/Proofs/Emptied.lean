import Highlight.Proofs.Embedding
import Highlight.Proofs.Reordering

/-!
# Disabled rules emptied

A disabled rule in a list of rules is passed over, and so is one that a named rule stands for.
With empty groups for them each rule leads on to what it led on to, and to empty groups besides.
-/

namespace Highlight.Grammar

/-- A rule in a list, and what is there for it: an empty group may be there for a disabled one. -/
inductive OrEmpty (R : RuleSource → RuleSource → Prop) : RuleSource → RuleSource → Prop
  | same {s s' : RuleSource} : R s s' → OrEmpty R s s'
  | empty {s : RuleSource} : OrEmpty R { s with disabled := true } .empty

/-- A named rule, and what is there for it: an empty group may be there for a disabled one, if
that only stands for another rule. -/
inductive NamedOrEmpty (R : RuleSource → RuleSource → Prop) : RuleSource → RuleSource → Prop
  | same {s s' : RuleSource} : R s s' → NamedOrEmpty R s s'
  | empty {s : RuleSource} {reference : String} :
    NamedOrEmpty R { s with reference := some reference, disabled := true } .empty

inductive RuleSource.Emptied : RuleSource → RuleSource → Prop
  | mk {s s' : RuleSource} : s'.reference = s.reference → s'.pattern = s.pattern → s'.opening = s.opening →
    s'.closing = s.closing → s'.condition = s.condition → s'.name = s.name → s'.contentName = s.contentName →
    List.Forall₂ (SameName Emptied) s.captures s'.captures →
    List.Forall₂ (SameName Emptied) s.openingCaptures s'.openingCaptures →
    List.Forall₂ (SameName Emptied) s.closingCaptures s'.closingCaptures →
    List.Forall₂ (SameName Emptied) s.conditionCaptures s'.conditionCaptures →
    List.Forall₂ (OrEmpty Emptied) s.patterns s'.patterns →
    List.Forall₂ (SameName (NamedOrEmpty Emptied)) s.repository s'.repository →
    s'.closingLast = s.closingLast → s'.disabled = s.disabled → Emptied s s'

structure GrammarSource.Emptied (g g' : GrammarSource) : Prop where
  name : g'.name = g.name
  scopeName : g'.scopeName = g.scopeName
  patterns : List.Forall₂ (OrEmpty RuleSource.Emptied) g.patterns g'.patterns
  repository : List.Forall₂ (SameName (NamedOrEmpty RuleSource.Emptied)) g.repository g'.repository

namespace RuleSource.Emptied

variable {s s' : RuleSource}

theorem reference : s.Emptied s' → s'.reference = s.reference
  | .mk h _ _ _ _ _ _ _ _ _ _ _ _ _ _ => h

theorem names : s.Emptied s' → s'.name = s.name ∧ s'.contentName = s.contentName
  | .mk _ _ _ _ _ h h' _ _ _ _ _ _ _ _ => ⟨h, h'⟩

theorem disabled : s.Emptied s' → s'.disabled = s.disabled
  | .mk _ _ _ _ _ _ _ _ _ _ _ _ _ _ h => h

theorem patterns : s.Emptied s' → List.Forall₂ (OrEmpty Emptied) s.patterns s'.patterns
  | .mk _ _ _ _ _ _ _ _ _ _ _ h _ _ _ => h

theorem repository : s.Emptied s' → List.Forall₂ (SameName (NamedOrEmpty Emptied)) s.repository s'.repository
  | .mk _ _ _ _ _ _ _ _ _ _ _ _ h _ _ => h

theorem shape : s.Emptied s' → s'.shape = s.shape
  | .mk _ hpattern hopening hclosing hcondition _ _ _ _ _ _ _ _ hlast _ =>
    shape_eq hpattern hopening hclosing hcondition hlast

theorem capturesFor : s.Emptied s' → ∀ use, List.Forall₂ (SameName Emptied) (s.capturesFor use) (s'.capturesFor use)
  | .mk _ _ _ _ _ _ _ hcaptures hopening hclosing hcondition _ _ _ _ =>
    rel_capturesFor (fun _ _ h => forall₂_isEmpty h) hcaptures hopening hclosing hcondition

end RuleSource.Emptied

/-! ## Nodes -/

inductive Body.Alike : Body → Body → Prop
  | group {ps ps' : List RuleSource} : List.Forall₂ (OrEmpty RuleSource.Emptied) ps ps' → Alike (.group ps) (.group ps')
  | rule {s s' : RuleSource} : s.Emptied s' → Alike (.rule s) (.rule s')
  | empty {s : RuleSource} : s.disabled = true → Alike (.group [s]) (.rule .empty)

structure Repository.Alike (r r' : Repository) : Prop where
  owner : r'.owner = r.owner
  path : r'.path = r.path
  entries : List.Forall₂ (SameName (Option.Rel (NamedOrEmpty RuleSource.Emptied))) r.entries r'.entries

structure Node.Alike (n n' : Node) : Prop where
  address : n'.address = n.address
  label : n'.label = n.label
  sight : List.Forall₂ Repository.Alike n.sight n'.sight
  body : n.body.Alike n'.body

structure Target.Alike (t t' : Target) : Prop where
  address : t'.address = t.address
  node : Option.Rel Node.Alike t.node t'.node

inductive Step.Alike : Step → Step → Prop
  | read {label source : String} : Alike (.read label source) (.read label source)
  | visit {m m' : Node} : m.Alike m' → Alike (.visit m) (.visit m')

def Node.Silences (n : Node) (a : Address) : Prop :=
  ∃ i s, n.body.patterns[i]? = some s ∧ s.disabled = true ∧ a = .inner n.address (.pattern i)

namespace Repository.Alike

variable {r r' : Repository} {entries entries' : Entries}

theorem ofEntries (owner : Address) (path : String)
    (h : List.Forall₂ (SameName (NamedOrEmpty RuleSource.Emptied)) entries entries') :
    (Repository.ofEntries owner path entries).Alike (Repository.ofEntries owner path entries') where
  owner := rfl
  path := rfl
  entries := by
    refine List.forall₂_map_left_iff.mpr (List.forall₂_map_right_iff.mpr (h.imp fun e e' he => ?_))
    obtain ⟨he⟩ := he
    exact ⟨.some he⟩

theorem of (a : Address) (h : List.Forall₂ (SameName (NamedOrEmpty RuleSource.Emptied)) entries entries') :
    (Repository.of a entries).Alike (Repository.of a entries') := by
  cases a with
  | root => exact ofEntries _ _ h
  | named owner path => exact ofEntries _ _ h
  | inner owner slot => exact ofEntries _ _ h

theorem addressOf (h : r.Alike r') (name : String) : r'.addressOf name = r.addressOf name := by
  unfold Repository.addressOf
  rw [h.owner, h.path]

theorem without (h : r.Alike r') (name : String) : (r.without name).Alike (r'.without name) where
  owner := h.owner
  path := h.path
  entries := by
    refine List.forall₂_map_left_iff.mpr (List.forall₂_map_right_iff.mpr (h.entries.imp fun e e' he => ?_))
    obtain ⟨he⟩ := he
    simp only
    split
    · exact ⟨.none⟩
    · exact ⟨he⟩

end Repository.Alike

/-! ## What a rule refers to -/

theorem NamedOrEmpty.body {s s' : RuleSource} (h : NamedOrEmpty RuleSource.Emptied s s') :
    (Site.ofEntry s).body.Alike (Site.ofEntry s').body := by
  unfold Site.ofEntry
  cases h with
  | same h =>
    rw [h.reference]
    by_cases href : s.reference.isSome = true
    · rw [if_pos href, if_pos href]
      exact .group (.cons (.same h) .nil)
    · rw [if_neg href, if_neg href]
      exact .rule h
  | empty =>
    exact .empty rfl

theorem node_of_lookup (name : String) (r : Repository) (outer : List Repository) (source : RuleSource) :
    (⟨r.addressOf name, r.without name :: outer, name,
      if source.reference.isSome then .group [source] else .rule source⟩ : Node) =
      ⟨r.addressOf name, r.without name :: outer, name, (Site.ofEntry source).body⟩ := by
  unfold Site.ofEntry
  by_cases href : source.reference.isSome = true
  · simp [href]
  · simp [href]

theorem rel_resolve {name : String} {sight sight' : List Repository} (h : List.Forall₂ Repository.Alike sight sight') :
    Option.Rel Target.Alike (resolve name sight) (resolve name sight') := by
  induction h with
  | nil => exact .none
  | @cons r r' outer outer' hr houter ih =>
    have hlookup := rel_lookup hr.entries name
    rw [resolve, resolve]
    cases hl : r.entries.lookup name with
    | none =>
      rw [hl] at hlookup
      generalize r'.entries.lookup name = source? at hlookup
      cases hlookup
      exact ih
    | some source? =>
      rw [hl] at hlookup
      generalize r'.entries.lookup name = source?' at hlookup
      cases hlookup with
      | some hsource =>
        refine .some ⟨hr.addressOf name, rel_map hsource fun s s' hs => ?_⟩
        rw [node_of_lookup, node_of_lookup]
        exact ⟨hr.addressOf name, rfl, .cons (hr.without name) houter, hs.body⟩

theorem rel_referred? {sight sight' : List Repository} (h : List.Forall₂ Repository.Alike sight sight') (reference : String) :
    Option.Rel Target.Alike (referred? sight reference) (referred? sight' reference) := by
  unfold referred?
  split
  · exact .some ⟨rfl, .none⟩
  · split
    · exact rel_resolve h
    · exact .none

def Target.IsEmpty (owner : Address) (ps : List RuleSource) (t : Target) : Prop :=
  ∃ i s sight label, ps[i]? = some s ∧ s.disabled = true ∧ t.address = .inner owner (.pattern i) ∧
    t.node = some ⟨t.address, sight, label, .rule .empty⟩

theorem padded_targets {owner : Address} {sight sight' : List Repository} {label : String}
    (hsight : List.Forall₂ Repository.Alike sight sight') {ps ps' : List RuleSource}
    (h : List.Forall₂ (OrEmpty RuleSource.Emptied) ps ps') :
    Padded (Target.IsEmpty owner ps) Target.Alike (targets owner sight label ps) (targets owner sight' label ps') := by
  refine .of_filterMap (forall₂_zipIdx h 0) ?_
  rintro ⟨s, i⟩ hs ⟨s', i'⟩ ⟨hss, hi⟩
  obtain rfl : i = i' := hi
  have hss : OrEmpty RuleSource.Emptied s s' := hss
  have hget : ps[i]? = some s := by simpa using List.mem_zipIdx_iff_getElem?.mp hs
  cases hss with
  | same hss =>
    left
    simp only [target?, hss.disabled, hss.reference]
    split
    · exact .none
    · split
      · exact rel_referred? hsight _
      · exact .some ⟨rfl, .some ⟨rfl, rfl, hsight, .rule hss⟩⟩
  | empty => exact .inr ⟨rfl, _, rfl, i, _, sight', label, hget, rfl, rfl, rfl⟩

namespace Node.Alike

variable {n n' : Node} {s s' : RuleSource}

theorem inside (h : n.Alike n') (hb : n.body = .rule s) (hb' : n'.body = .rule s') (hs : s.Emptied s') :
    List.Forall₂ Repository.Alike n.inside n'.inside := by
  unfold Node.inside
  simp only [hb, hb', forall₂_isEmpty hs.repository, h.address]
  split
  · exact h.sight
  · exact .cons (.of _ hs.repository) h.sight

theorem innerLabel (h : n.Alike n') (hb : n.body = .rule s) (hb' : n'.body = .rule s') (hs : s.Emptied s') :
    n'.innerLabel = n.innerLabel := by
  unfold Node.innerLabel
  simp only [hb, hb', hs.names.1, h.label]

/-- The captures are the same, and lead to rules that are alike. -/
theorem captureTargets (h : n.Alike n') (hb : n.body = .rule s) (hb' : n'.body = .rule s') (hs : s.Emptied s')
    (use : CaptureUse) :
    List.Forall₂ (fun x y => y.1 = x.1 ∧ Option.Rel Node.Alike x.2 y.2) (n.captureTargets s use) (n'.captureTargets s' use) := by
  have hentries := hs.capturesFor use
  have hinside := h.inside hb hb' hs
  unfold Node.captureTargets
  rw [h.address, h.innerLabel hb hb' hs]
  generalize s.capturesFor use = entries at hentries ⊢
  generalize s'.capturesFor use = entries' at hentries ⊢
  induction hentries with
  | nil => exact .nil
  | cons he _ ih =>
    obtain ⟨he⟩ := he
    rw [List.filterMap_cons, List.filterMap_cons]
    simp only [captureTarget?, forall₂_isEmpty he.patterns, he.names.1]
    cases Text.number? _ with
    | none => exact ih
    | some group =>
      simp only [Option.map_some]
      split
      · exact .cons ⟨rfl, .none⟩ ih
      · exact .cons ⟨rfl, .some ⟨rfl, rfl, hinside, .group he.patterns⟩⟩ ih

theorem captures (h : n.Alike n') (hb : n.body = .rule s) (hb' : n'.body = .rule s') (hs : s.Emptied s')
    (use : CaptureUse) : n'.captures s' use = n.captures s use := by
  have hsame : (n'.captureTargets s' use).map (·.1) = (n.captureTargets s use).map (·.1) := by
    have htargets := h.captureTargets hb hb' hs use
    generalize n.captureTargets s use = targets at htargets ⊢
    generalize n'.captureTargets s' use = targets' at htargets ⊢
    induction htargets with
    | nil => rfl
    | cons hxy _ ih => rw [List.map_cons, List.map_cons, hxy.1, ih]
  unfold Node.captures
  rw [hsame]

/-- The patterns of the rules refer to rules that are alike, and to empty groups. -/
theorem targets (h : n.Alike n') {ps ps' : List RuleSource} (hsight : List.Forall₂ Repository.Alike n.inside n'.inside)
    (hlabel : n'.innerLabel = n.innerLabel) (hps : List.Forall₂ (OrEmpty RuleSource.Emptied) ps ps') :
    Padded (Target.IsEmpty n.address ps) Target.Alike (n.targets ps) (n'.targets ps') := by
  unfold Node.targets
  rw [h.address, hlabel]
  exact padded_targets hsight hps

end Node.Alike

def Node.Leaves (n m : Node) : Prop :=
  m.body = .rule .empty ∧ n.Silences m.address

theorem Node.Leaves.rule {n m : Node} (h : n.Leaves m) : m.rule = .container [] := by
  unfold Node.rule
  rw [h.1]
  rfl

theorem padded_visits {Extra : Node → Prop} {nodes nodes' : List (Option Node)}
    (h : Padded (fun m? => ∃ m, m? = some m ∧ Extra m) (Option.Rel Node.Alike) nodes nodes') :
    Padded (fun st => ∃ m, st = .visit m ∧ Extra m) Step.Alike (Node.visits nodes) (Node.visits nodes') := by
  unfold Node.visits
  induction h with
  | nil => exact .nil
  | keep hm _ ih =>
    rw [List.filterMap_cons, List.filterMap_cons]
    cases hm with
    | none => exact ih
    | some hm => exact .keep (.visit hm) ih
  | extra hm _ ih =>
    obtain ⟨m, rfl, hm⟩ := hm
    exact .extra ⟨m, rfl, hm⟩ ih

namespace Node.Alike

variable {n n' : Node} {s s' : RuleSource} {ps ps' : List RuleSource}

theorem addresses (h : Padded (Target.IsEmpty n.address ps) Target.Alike (n.targets ps) (n'.targets ps'))
    (hps : n.body.patterns = ps) :
    Padded n.Silences (fun a b => b = a) ((n.targets ps).map (·.address)) ((n'.targets ps').map (·.address)) := by
  refine h.map (fun _ _ _ _ ht => ht.address) ?_
  rintro t _ ⟨i, s, _, _, hget, hdisabled, ha, _⟩
  exact ⟨i, s, hps ▸ hget, hdisabled, ha⟩

theorem patternSteps (h : Padded (Target.IsEmpty n.address ps) Target.Alike (n.targets ps) (n'.targets ps'))
    (hps : n.body.patterns = ps) :
    Padded (fun st => ∃ m, st = .visit m ∧ n.Leaves m) Step.Alike (n.patternSteps ps) (n'.patternSteps ps') := by
  refine padded_visits (h.map (fun _ _ _ _ ht => ht.node) ?_)
  rintro t _ ⟨i, s, _, _, hget, hdisabled, ha, hnode⟩
  exact ⟨_, hnode, rfl, i, s, hps ▸ hget, hdisabled, ha⟩

theorem captureSteps (h : n.Alike n') (hb : n.body = .rule s) (hb' : n'.body = .rule s') (hs : s.Emptied s')
    (use : CaptureUse) :
    Padded (fun st => ∃ m, st = .visit m ∧ n.Leaves m) Step.Alike (n.captureSteps s use) (n'.captureSteps s' use) := by
  refine padded_visits (.of_forall₂ ?_)
  exact List.forall₂_map_left_iff.mpr (List.forall₂_map_right_iff.mpr
    ((h.captureTargets hb hb' hs use).imp fun _ _ hxy => hxy.2))

/-- The rules differ in their lists at most, where the second one may have empty groups. -/
theorem rule (h : n.Alike n') : n'.rule = n.rule.carry id n'.rule.patterns ∧
    Padded n.Silences (fun a b => b = a) n.rule.patterns n'.rule.patterns := by
  have hid (cs : List (Capture Address)) : cs.map (·.renumber id) = cs := by
    have hcapture (c : Capture Address) : c.renumber id = c := by simp [Capture.renumber]
    simp [hcapture]
  generalize hb : n.body = b
  generalize hb' : n'.body = b'
  have hbody : b.Alike b' := hb ▸ hb' ▸ h.body
  unfold Node.rule
  rw [hb, hb']
  cases hbody with
  | @group ps ps' hps =>
    have hsight : List.Forall₂ Repository.Alike n.inside n'.inside := by
      simp only [Node.inside, hb, hb', h.sight]
    have hlabel : n'.innerLabel = n.innerLabel := by
      simp only [Node.innerLabel, hb, hb', h.label]
    exact ⟨rfl, addresses (h.targets hsight hlabel hps) (by rw [hb]; rfl)⟩
  | @rule s s' hs =>
    have htargets := addresses (h.targets (h.inside hb hb' hs) (h.innerLabel hb hb' hs) hs.patterns) (by rw [hb]; rfl)
    simp only [hs.shape]
    cases s.shape with
    | group => exact ⟨rfl, htargets⟩
    | piece p =>
      simp only [h.captures hb hb' hs, hs.names.1, Rule.carry, hid, true_and]
      exact .nil
    | region opening closing lasting =>
      simp only [h.captures hb hb' hs, hs.names.1, hs.names.2, Rule.carry, Region.carry, hid]
      exact ⟨rfl, htargets⟩
  | @empty s hdisabled =>
    have hnone : n.targets [s] = [] := by
      simp [Node.targets, Grammar.targets, target?, hdisabled]
    simp only [hnone]
    exact ⟨rfl, .nil⟩

/-- The rules lead on to rules that are alike, and to empty groups. -/
theorem steps (h : n.Alike n') :
    Padded (fun st => ∃ m, st = .visit m ∧ n.Leaves m) Step.Alike n.steps n'.steps := by
  generalize hb : n.body = b
  generalize hb' : n'.body = b'
  have hbody : b.Alike b' := hb ▸ hb' ▸ h.body
  unfold Node.steps
  rw [hb, hb']
  cases hbody with
  | @group ps ps' hps =>
    have hsight : List.Forall₂ Repository.Alike n.inside n'.inside := by
      simp only [Node.inside, hb, hb', h.sight]
    have hlabel : n'.innerLabel = n.innerLabel := by
      simp only [Node.innerLabel, hb, hb', h.label]
    exact patternSteps (h.targets hsight hlabel hps) (by rw [hb]; rfl)
  | @rule s s' hs =>
    have hlabel := h.innerLabel hb hb' hs
    have hpatterns := patternSteps (h.targets (h.inside hb hb' hs) hlabel hs.patterns) (by rw [hb]; rfl)
    simp only [hs.shape, hlabel]
    cases s.shape with
    | group => exact hpatterns
    | piece p => exact .keep .read (h.captureSteps hb hb' hs .piece)
    | region opening closing lasting =>
      have hreads : ∀ sources : List String, Padded (fun st => ∃ m, st = .visit m ∧ n.Leaves m) Step.Alike
          (sources.map (.read n.innerLabel)) (sources.map (.read n.innerLabel)) := by
        intro sources
        induction sources with
        | nil => exact .nil
        | cons source sources ih => exact .keep .read ih
      refine .append (.append (.append ?_ (hreads _)) (h.captureSteps hb hb' hs _)) hpatterns
      exact .keep .read (h.captureSteps hb hb' hs .opening)
  | @empty s hdisabled =>
    have hnone : n.targets [s] = [] := by
      simp [Node.targets, Grammar.targets, target?, hdisabled]
    simp only [Node.patternSteps, hnone]
    exact .nil

end Node.Alike

end Highlight.Grammar
