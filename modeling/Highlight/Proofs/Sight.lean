import Highlight.Proofs.Layout

/-!
# What is in sight

Each node that is laid out stands at a place of the grammar, and the repositories in its sight
are those of the rules around this place, except that captures bring none.
-/

namespace Highlight.Grammar

/-! ## Repositories in sight -/

structure Repository.Shows (r : Repository) (p : Place) (entries : Entries) : Prop where
  address : ∀ name, r.addressOf name = (Place.named p name).address
  defined : ∀ name, r.entries.lookup name = none ↔ entries.lookup name = none
  rule : ∀ name s, r.entries.lookup name = some (some s) → entries.lookup name = some s

/-- The repositories in sight are those of places, of which some without rules are left out. -/
inductive Shown : List Repository → List (Place × Entries) → Prop
  | nil : Shown [] []
  | skip {p : Place} {sight : List Repository} {chain : List (Place × Entries)} :
    Shown sight chain → Shown sight ((p, []) :: chain)
  | cons {r : Repository} {p : Place} {entries : Entries} {sight : List Repository}
    {chain : List (Place × Entries)} : r.Shows p entries → Shown sight chain → Shown (r :: sight) ((p, entries) :: chain)

theorem Repository.shows_of (p : Place) (entries : Entries) : (Repository.of p.address entries).Shows p entries where
  address name := addressOf_of p.address entries [] name
  defined name := by rw [lookup_of, Option.map_eq_none_iff]
  rule name s h := by
    rw [lookup_of, Option.map_eq_some_iff] at h
    obtain ⟨_, h, he⟩ := h
    cases he
    exact h

theorem Repository.Shows.without {r : Repository} {p : Place} {entries : Entries} (h : r.Shows p entries)
    (name : String) : (r.without name).Shows p entries where
  address := h.address
  defined x := by
    rw [lookup_without, ← h.defined]
    split
    · exact Option.map_eq_none_iff
    · rfl
  rule x s hx := by
    rw [lookup_without] at hx
    split at hx
    · rw [Option.map_eq_some_iff] at hx
      obtain ⟨_, _, he⟩ := hx
      cases he
    · exact h.rule x s hx

theorem Shown.own {p : Place} {entries : Entries} {sight : List Repository} {chain : List (Place × Entries)}
    (h : Shown sight chain) :
    Shown (if entries.isEmpty then sight else .of p.address entries :: sight) ((p, entries) :: chain) := by
  cases entries with
  | nil => exact .skip h
  | cons e es => exact .cons (Repository.shows_of p (e :: es)) h

/-- A repository in sight that is the first with a name is shown, as are those around it. -/
theorem Shown.split {name : String} {r : Repository} {outer : List Repository} :
    ∀ {inner : List Repository} {chain : List (Place × Entries)}, Shown (inner ++ r :: outer) chain →
      (∀ r' ∈ inner, r'.entries.lookup name = none) →
      ∃ before p entries after, chain = before ++ (p, entries) :: after ∧ r.Shows p entries ∧ Shown outer after ∧
        ∀ e ∈ before, e.2.lookup name = none := by
  intro inner chain h
  generalize hs : inner ++ r :: outer = sight at h
  induction h generalizing inner with
  | nil => simp at hs
  | @skip p sight chain _ ih =>
    intro hnone
    obtain ⟨before, q, entries, after, rfl, h1, h2, h3⟩ := ih hs hnone
    refine ⟨(p, []) :: before, q, entries, after, rfl, h1, h2, ?_⟩
    intro e he
    rcases List.mem_cons.mp he with rfl | he
    · rfl
    · exact h3 e he
  | @cons r' p entries sight chain hshow hrest ih =>
    intro hnone
    cases inner with
    | nil =>
      rw [List.nil_append, List.cons.injEq] at hs
      obtain ⟨rfl, rfl⟩ := hs
      exact ⟨[], p, entries, chain, rfl, hshow, hrest, List.forall_mem_nil _⟩
    | cons r'' inner =>
      rw [List.cons_append, List.cons.injEq] at hs
      obtain ⟨rfl, hs⟩ := hs
      obtain ⟨before, q, es, after, rfl, h1, h2, h3⟩ := ih hs fun r' hr' => hnone r' (List.mem_cons_of_mem _ hr')
      refine ⟨(p, entries) :: before, q, es, after, rfl, h1, h2, ?_⟩
      intro e he
      rcases List.mem_cons.mp he with rfl | he
      · exact (hshow.defined name).mp (hnone r'' (List.mem_cons_self ..))
      · exact h3 e he

theorem findIn_append {name : String} {p : Place} {entries : Entries} {after : List (Place × Entries)} :
    ∀ {before : List (Place × Entries)}, (∀ e ∈ before, e.2.lookup name = none) →
      (entries.lookup name).isSome → findIn name (before ++ (p, entries) :: after) = some (.named p name)
  | [], _, he => by rw [List.nil_append, findIn, if_pos he]
  | e :: before, hb, he => by
    have hnone : ¬(e.2.lookup name).isSome = true := by rw [hb e (List.mem_cons_self ..)]; simp
    rw [List.cons_append, findIn, if_neg hnone]
    exact findIn_append (fun e' he' => hb e' (List.mem_cons_of_mem e he')) he

theorem Shown.findIn_of_resolve_eq_none {name : String} {sight : List Repository} {chain : List (Place × Entries)}
    (h : Shown sight chain) (hr : resolve name sight = none) : findIn name chain = none := by
  induction h with
  | nil => rfl
  | skip _ ih => exact ih hr
  | @cons r p entries sight chain hshow _ ih =>
    rw [resolve] at hr
    cases hl : r.entries.lookup name with
    | none =>
      rw [hl] at hr
      rw [findIn, (hshow.defined name).mp hl]
      exact ih hr
    | some source? =>
      rw [hl] at hr
      cases hr

/-- Names are resolved to what they mean. -/
theorem Shown.address_resolve {sight : List Repository} {chain : List (Place × Entries)} (h : Shown sight chain)
    (name : String) : (resolve name sight).map (·.address) = (findIn name chain).map Place.address := by
  cases hr : resolve name sight with
  | none => rw [h.findIn_of_resolve_eq_none hr]; rfl
  | some t =>
    obtain ⟨inner, r, outer, source?, rfl, hl, ha, hnone, _⟩ := resolve_eq_some hr
    obtain ⟨before, p, entries, after, rfl, hshow, _, hb⟩ := h.split hnone
    have hdefined : (entries.lookup name).isSome := by
      rw [← Option.ne_none_iff_isSome, Ne, ← hshow.defined, hl]
      simp
    rw [findIn_append hb hdefined, Option.map_some, Option.map_some, ha, hshow.address]

variable {g : GrammarSource}

namespace GrammarSource

theorem own_eq {p : Place} {site : Site} (h : g.site? p = some site) : g.own p = [(p, site.repository)] := by
  rw [own, h]
  rfl

/-- The repositories around a rule are, from one of them on, those around the rule that brings it. -/
theorem repositories_suffix {q : Place} {entries : Entries} {after : List (Place × Entries)} :
    ∀ {p : Place} {before : List (Place × Entries)}, g.repositories p = before ++ (q, entries) :: after →
      g.repositories q = (q, entries) :: after ∧ ∃ site, g.site? q = some site ∧ site.repository = entries := by
  have step (p : Place) (outer : List (Place × Entries)) (hp : g.repositories p = g.own p ++ outer)
      (ih : ∀ before, outer = before ++ (q, entries) :: after →
        g.repositories q = (q, entries) :: after ∧ ∃ site, g.site? q = some site ∧ site.repository = entries)
      (before : List (Place × Entries)) (h : g.repositories p = before ++ (q, entries) :: after) :
      g.repositories q = (q, entries) :: after ∧ ∃ site, g.site? q = some site ∧ site.repository = entries := by
    cases hs : g.site? p with
    | none =>
      rw [hp, own, hs] at h
      exact ih before h
    | some site =>
      rw [hp, own_eq hs, List.singleton_append] at h
      cases before with
      | nil =>
        rw [List.nil_append, List.cons.injEq, Prod.mk.injEq] at h
        obtain ⟨⟨rfl, rfl⟩, rfl⟩ := h
        exact ⟨by rw [hp, own_eq hs]; rfl, site, hs, rfl⟩
      | cons e before =>
        rw [List.cons_append, List.cons.injEq] at h
        exact ih before h.2
  intro p
  induction p with
  | top =>
    intro before h
    exact step .top [] (List.append_nil _).symm (fun before h => by simp at h) before h
  | named owner name ih =>
    intro before h
    exact step (.named owner name) (g.repositories owner) rfl (fun _ h => ih h) before h
  | inner owner slot ih =>
    intro before h
    exact step (.inner owner slot) (g.repositories owner) rfl (fun _ h => ih h) before h

/-- The repositories that are in sight where a grammar is laid out: captures bring none there. -/
def inSight (g : GrammarSource) (p : Place) : List (Place × Entries) :=
  (g.repositories p).filter fun e => !e.1.isCapture

theorem inSight_suffix {p q : Place} {entries : Entries} {before after : List (Place × Entries)}
    (h : g.inSight p = before ++ (q, entries) :: after) :
    g.inSight q = (q, entries) :: after ∧ ∃ site, g.site? q = some site ∧ site.repository = entries := by
  obtain ⟨first, rest, hp, _, hrest⟩ := List.filter_eq_append_iff.mp h
  obtain ⟨skipped, after', hrest, _, hq, hafter⟩ := List.filter_eq_cons_iff.mp hrest
  have hp' : g.repositories p = (first ++ skipped) ++ (q, entries) :: after' := by
    rw [hp, hrest, List.append_assoc]
  obtain ⟨hrepositories, hsite⟩ := repositories_suffix hp'
  refine ⟨?_, hsite⟩
  rw [inSight, hrepositories, List.filter_cons, if_pos hq, hafter]

end GrammarSource

/-! ## Nodes at their places -/

structure Node.Fits (g : GrammarSource) (p : Place) (n : Node) : Prop where
  address : n.address = p.address
  site : ∃ site, g.site? p = some site ∧ site.body = n.body
  sight : Shown n.inside (g.inSight p)

namespace Node

variable {n m : Node} {p : Place}

theorem fits_root (scopeName : String) : (rootNode g scopeName).Fits g .top where
  address := rfl
  site := ⟨_, rfl, rfl⟩
  sight := .cons (Repository.shows_of .top g.repository) .nil

theorem Fits.named (hn : n.Fits g p) {name : String} {inner outer : List Repository} {r : Repository}
    {source : RuleSource} (hi : n.inside = inner ++ r :: outer) (hnone : ∀ r' ∈ inner, r'.entries.lookup name = none)
    (hr : r.entries.lookup name = some (some source)) :
    ∃ q, Fits g q ⟨r.addressOf name, r.without name :: outer, name, (Site.ofEntry source).body⟩ := by
  obtain ⟨before, q, entries, after, hchain, hshow, houter, _⟩ := Shown.split (hi ▸ hn.sight) hnone
  obtain ⟨hq, site, hsite, hentries⟩ := GrammarSource.inSight_suffix hchain
  have hnamed : g.site? (.named q name) = some (Site.ofEntry source) := by
    show (g.site? q).bind (·.named? name) = _
    rw [hsite, Option.bind_some, Site.named?, hentries, hshow.rule name source hr]
    rfl
  have hsight : g.inSight (.named q name) = (.named q name, (Site.ofEntry source).repository) :: (q, entries) :: after := by
    rw [← hq]
    show (g.own (.named q name) ++ g.repositories q).filter _ = _
    rw [GrammarSource.own_eq hnamed]
    rfl
  have houter' : Shown (r.without name :: outer) ((q, entries) :: after) := .cons (hshow.without name) houter
  refine ⟨.named q name, hshow.address name, ⟨_, hnamed, rfl⟩, ?_⟩
  rw [hsight]
  unfold inside Site.ofEntry
  by_cases href : source.reference.isSome = true
  · simp only [href, if_true]
    exact .skip houter'
  · simp only [href]
    rw [hshow.address name]
    exact houter'.own

theorem Fits.pattern (hn : n.Fits g p) {index : Nat} {s : RuleSource} (hs : n.body.patterns[index]? = some s)
    (hdisabled : s.disabled = false) (href : s.reference = none) :
    Fits g (.inner p (.pattern index)) ⟨.inner n.address (.pattern index), n.inside, n.innerLabel, .rule s⟩ := by
  obtain ⟨site, hsite, hbody⟩ := hn.site
  have hinner : g.site? (.inner p (.pattern index)) = some ⟨.rule s, s.repository⟩ := by
    show (g.site? p).bind (·.pattern? index) = _
    rw [hsite, Option.bind_some, Site.pattern?, hbody, hs]
    simp [hdisabled, href]
  refine ⟨congrArg (Address.inner · _) hn.address, ⟨_, hinner, rfl⟩, ?_⟩
  show Shown (if s.repository.isEmpty then n.inside else .of (.inner n.address _) s.repository :: n.inside)
    ((g.own (.inner p (.pattern index)) ++ g.repositories p).filter _)
  rw [GrammarSource.own_eq hinner, hn.address]
  exact hn.sight.own (p := .inner p (.pattern index))

theorem Fits.capture (hn : n.Fits g p) {s : RuleSource} {use : CaptureUse} {key : String} {c : RuleSource}
    (hb : n.body = .rule s)
    (hc : (s.capturesFor use).find? (fun e => e.1 = key ∧ e.2.patterns.isEmpty = false) = some (key, c)) :
    Fits g (.inner p (.capture use key))
      ⟨.inner n.address (.capture use key), n.inside, n.innerLabel, .group c.patterns⟩ := by
  obtain ⟨site, hsite, hbody⟩ := hn.site
  have hinner : g.site? (.inner p (.capture use key)) = some ⟨.group c.patterns, c.repository⟩ := by
    show (g.site? p).bind (·.capture? use key) = _
    rw [hsite, Option.bind_some, Site.capture?, hbody, hb]
    simp only
    rw [hc]
    rfl
  refine ⟨congrArg (Address.inner · _) hn.address, ⟨_, hinner, rfl⟩, ?_⟩
  show Shown n.inside ((g.own (.inner p (.capture use key)) ++ g.repositories p).filter _)
  rw [GrammarSource.own_eq hinner]
  exact hn.sight

end Node

def Step.address? : Step → Option Address
  | .read _ _ => none
  | .visit m => some m.address

namespace Node

variable {n m : Node}

theorem address_of_leadsTo_pattern {ps : List RuleSource} {st : Step} (h : st ∈ n.patternSteps ps) {o : Address}
    {use : CaptureUse} {key : String} : st.address? ≠ some (.inner o (.capture use key)) := by
  intro ha
  cases st with
  | read label source => cases ha
  | visit m =>
    obtain ⟨t, ht, hm⟩ := visit_mem_patternSteps.mp h
    obtain ⟨⟨s, index⟩, _, ht⟩ := List.mem_filterMap.mp ht
    simp only [Step.address?, Option.some.injEq] at ha
    simp only [target?] at ht
    split at ht
    · cases ht
    · split at ht
      · unfold referred? at ht
        split at ht
        · cases ht
          cases hm
        · split at ht
          · obtain ⟨_, r, _, source?, _, _, _, _, hn⟩ := resolve_eq_some ht
            rw [hn] at hm
            obtain ⟨_, _, rfl⟩ := Option.map_eq_some_iff.mp hm
            cases ha
          · cases ht
      · cases ht
        cases hm
        cases ha

def captureStep? (n : Node) (use : CaptureUse) (e : String × RuleSource) : Option Step :=
  (captureTarget? n.address n.inside n.innerLabel use e.1 e.2).bind fun t => t.2.map .visit

theorem captureSteps_eq (n : Node) (s : RuleSource) (use : CaptureUse) :
    n.captureSteps s use = (s.capturesFor use).filterMap (n.captureStep? use) := by
  rw [captureSteps, visits, captureTargets, List.filterMap_map, List.filterMap_filterMap]
  rfl

theorem captureStep?_eq_some {use : CaptureUse} {e : String × RuleSource} {st : Step} :
    n.captureStep? use e = some st ↔ (Text.number? e.1.toList).isSome ∧ e.2.patterns.isEmpty = false ∧
      st = .visit ⟨.inner n.address (.capture use e.1), n.inside, n.innerLabel, .group e.2.patterns⟩ := by
  unfold captureStep? captureTarget?
  cases Text.number? e.1.toList with
  | none => simp
  | some group =>
    by_cases he : e.2.patterns.isEmpty = true
    · simp [he]
    · simp [he, eq_comm]

theorem find?_captureSteps {s : RuleSource} {use : CaptureUse} {key : String}
    (h : (n.captureSteps s use).find? (fun st => st.address? = some (.inner n.address (.capture use key))) = some (.visit m)) :
    ∃ c, m = ⟨.inner n.address (.capture use key), n.inside, n.innerLabel, .group c.patterns⟩ ∧
      (s.capturesFor use).find? (fun e => e.1 = key ∧ e.2.patterns.isEmpty = false) = some (key, c) := by
  rw [captureSteps_eq, List.find?_filterMap, Option.bind_eq_some_iff] at h
  obtain ⟨⟨key', c⟩, hfind, hstep⟩ := h
  have hany (e : String × RuleSource) : (n.captureStep? use e).any
      (fun st => st.address? = some (.inner n.address (.capture use key))) = true ↔
      (Text.number? e.1.toList).isSome ∧ e.2.patterns.isEmpty = false ∧ e.1 = key := by
    rw [Option.any_eq_true_iff_get]
    constructor
    · rintro ⟨hs, ha⟩
      obtain ⟨h1, h2, h3⟩ := captureStep?_eq_some.mp (Option.some_get hs).symm
      rw [h3] at ha
      simp [Step.address?] at ha
      exact ⟨h1, h2, ha⟩
    · rintro ⟨h1, h2, rfl⟩
      have hs : n.captureStep? use e = some _ := captureStep?_eq_some.mpr ⟨h1, h2, rfl⟩
      simp [hs, Step.address?]
  have hfound := List.find?_some hfind
  obtain ⟨hnumber, _, hkey⟩ := (hany (key', c)).mp hfound
  obtain ⟨_, _, hm⟩ := captureStep?_eq_some.mp hstep
  simp only at hkey
  subst hkey
  rw [Step.visit.injEq] at hm
  refine ⟨c, hm, ?_⟩
  rw [← hfind]
  congr 1
  funext e
  rw [Bool.eq_iff_iff, hany, decide_eq_true_eq]
  constructor
  · rintro ⟨rfl, he⟩
    exact ⟨hnumber, he, rfl⟩
  · rintro ⟨_, he, rfl⟩
    exact ⟨rfl, he⟩

theorem find?_steps {s : RuleSource} (hb : n.body = .rule s) {use : CaptureUse} {key : String} {st : Step}
    (h : n.steps.find? (fun st => st.address? = some (.inner n.address (.capture use key))) = some st) :
    (n.captureSteps s use).find? (fun st => st.address? = some (.inner n.address (.capture use key))) = some st := by
  have hpatterns (ps : List RuleSource) : (n.patternSteps ps).find?
      (fun st => st.address? = some (.inner n.address (.capture use key))) = none := by
    rw [List.find?_eq_none]
    intro st hst
    simpa using address_of_leadsTo_pattern hst
  have hcaptures (use' : CaptureUse) (h : (n.captureSteps s use').find?
      (fun st => st.address? = some (.inner n.address (.capture use key))) = some st) :
      (n.captureSteps s use).find? (fun st => st.address? = some (.inner n.address (.capture use key))) = some st := by
    have hst := List.mem_of_find?_eq_some h
    rw [captureSteps_eq] at hst
    obtain ⟨e, _, he⟩ := List.mem_filterMap.mp hst
    obtain ⟨_, _, rfl⟩ := captureStep?_eq_some.mp he
    have ha := List.find?_some h
    simp [Step.address?] at ha
    obtain ⟨rfl, _⟩ := ha
    exact h
  unfold steps at h
  simp only [hb] at h
  split at h
  · rw [hpatterns] at h
    cases h
  · rw [List.find?_cons_of_neg (by simp [Step.address?])] at h
    exact hcaptures .piece h
  · rename_i lasting _
    have hreads (ss : List String) : (ss.map (Step.read n.innerLabel)).find?
        (fun st => st.address? = some (.inner n.address (.capture use key))) = none := by
      rw [List.find?_eq_none]
      intro st hst
      obtain ⟨_, _, rfl⟩ := List.mem_map.mp hst
      simp [Step.address?]
    rw [List.cons_append, List.cons_append, List.cons_append, List.find?_cons_of_neg (by simp [Step.address?]),
      List.find?_append, List.find?_append, List.find?_append, hpatterns, hreads, Option.or_none, Option.or_none,
      Option.or_eq_some_iff] at h
    rcases h with h | ⟨_, h⟩
    · exact hcaptures .opening h
    · exact hcaptures (.atEnd lasting) h

end Node

/-- What is laid out stands at places. -/
theorem hereditary_fits : Draft.Hereditary fun n => ∃ p, n.Fits g p := by
  rintro n ⟨p, hn⟩ before m after hs hfirst
  have hm : .visit m ∈ n.steps := by simp [hs]
  cases Node.leadsTo_of_visit hm with
  | named hi hnone hr => exact hn.named hi hnone hr
  | pattern hget hdisabled href => exact ⟨_, hn.pattern hget hdisabled href⟩
  | @capture s use key c hb _ _ =>
    -- of several captures with this key the first that has patterns counts
    have hfind : n.steps.find? (fun st => st.address? = some (.inner n.address (.capture use key))) =
        some (.visit ⟨.inner n.address (.capture use key), n.inside, n.innerLabel, .group c.patterns⟩) := by
      rw [List.find?_eq_some_iff_append]
      refine ⟨by simp [Step.address?], before, after, hs, ?_⟩
      intro st hst
      cases st with
      | read label source => simp [Step.address?]
      | visit k => simpa [Step.address?] using hfirst k hst
    obtain ⟨c', hm', hfirst⟩ := Node.find?_captureSteps (Node.find?_steps hb hfind)
    rw [hm']
    exact ⟨_, hn.capture hb hfirst⟩

def GrammarSource.draft (g : GrammarSource) (scopeName : String) : Draft :=
  Draft.empty.layOut (rootNode g scopeName)

/-- Nothing is missing in the sight of the root. -/
theorem known_root {scopeName : String} {a : Address} (h : Known (rootNode g scopeName).sight a) : a = .root := by
  rcases h with h | ⟨r, hr, name, hname, _⟩
  · exact h
  · obtain rfl : r = .of .root g.repository := List.mem_singleton.mp hr
    rw [Repository.lookup_of, Option.map_eq_some_iff] at hname
    obtain ⟨_, _, he⟩ := hname
    cases he

/-- What holds of the root, and of what a rule leads on to if it holds of the rule, holds of the draft. -/
theorem GrammarSource.grows_draft_of {Good : Node → Prop} (scopeName : String) (hgood : Draft.Hereditary Good)
    (hroot : Good (rootNode g scopeName)) :
    Draft.Grows Good .empty (g.draft scopeName) ∧ [rootNode g scopeName] <+: (g.draft scopeName).nodes := by
  obtain ⟨hgrows, _, hfirst⟩ := Draft.grows_layOut hgood (rootNode g scopeName) .empty hroot fun a ha =>
    .inr (known_root ha)
  exact ⟨hgrows, hfirst (by simp [Draft.empty, Draft.addresses])⟩

theorem GrammarSource.grows_draft (g : GrammarSource) (scopeName : String) :
    Draft.Grows (fun n => ∃ p, n.Fits g p) .empty (g.draft scopeName) ∧
      [rootNode g scopeName] <+: (g.draft scopeName).nodes :=
  grows_draft_of scopeName hereditary_fits ⟨_, Node.fits_root scopeName⟩

variable {scopeName : String}

namespace GrammarSource

theorem nodup_draft : (g.draft scopeName).addresses.Nodup :=
  (g.grows_draft scopeName).1.nodup .nil

theorem fits_of_mem_draft {n : Node} (hn : n ∈ (g.draft scopeName).nodes) : ∃ p, n.Fits g p := by
  rcases (g.grows_draft scopeName).1.added n hn with hn | hn
  · cases hn
  · exact hn.1

theorem keys_of_mem_draft {n : Node} (hn : n ∈ (g.draft scopeName).nodes) {a : Address} (ha : a ∈ n.rule.keys) :
    a ∈ (g.draft scopeName).addresses := by
  rcases (g.grows_draft scopeName).1.added n hn with hn | hn
  · cases hn
  · exact hn.2 a ha

theorem head?_draft : (g.draft scopeName).nodes.head? = some (rootNode g scopeName) := by
  obtain ⟨rest, hrest⟩ := (g.grows_draft scopeName).2
  rw [← hrest]
  rfl

end GrammarSource

end Highlight.Grammar
