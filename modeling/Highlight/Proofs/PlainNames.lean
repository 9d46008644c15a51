import Highlight.Proofs.Sight

/-!
# Names that keep rules apart

Two rules of a grammar may have one address, as addresses join names with strokes and a name
may hold strokes itself. Where no name holds one, the address of a rule tells its place.
-/

namespace Highlight.Grammar

namespace GrammarSource

variable (g : GrammarSource)

def KeysApart : Prop :=
  ∀ p q, (g.site? p).isSome → (g.site? q).isSome → p.address = q.address → p = q

def CapturesBringNone : Prop :=
  ∀ p site, g.site? p = some site → p.isCapture → site.repository = []

end GrammarSource

variable {g : GrammarSource} {p : Place}

theorem Place.eq_top_of_address (h : p.address = .root) : p = .top := by
  cases p with
  | top => rfl
  | named owner name =>
    simp only [address, Repository.of] at h
    split at h
    · cases h
    · cases h
  | inner owner slot => cases h

/-! ## What holds of sites -/

theorem mem_of_lookup {entries : Entries} {name : String} {s : RuleSource}
    (h : entries.lookup name = some s) : (name, s) ∈ entries := by
  obtain ⟨before, after, rfl, _⟩ := List.lookup_eq_some_iff.mp h
  simp

/-- What holds at the top, and of named rules, patterns and captures where it holds of the rule
around them, holds at each place. -/
theorem GrammarSource.of_site? {S : Site → Prop} (top : S ⟨.group g.patterns, g.repository⟩)
    (named : ∀ site, S site → ∀ e ∈ site.repository, S (.ofEntry e.2))
    (pattern : ∀ site, S site → ∀ s ∈ site.body.patterns, S ⟨.rule s, s.repository⟩)
    (capture : ∀ site, S site → ∀ s, site.body = .rule s → ∀ use, ∀ e ∈ s.capturesFor use,
      S ⟨.group e.2.patterns, e.2.repository⟩) :
    ∀ {p : Place} {site : Site}, g.site? p = some site → S site := by
  intro p
  induction p with
  | top =>
    intro site hs
    cases hs
    exact top
  | named owner name ih =>
    intro site hs
    obtain ⟨outer, ho, hs⟩ := Option.bind_eq_some_iff.mp hs
    obtain ⟨s, hlookup, rfl⟩ := Option.map_eq_some_iff.mp hs
    exact named outer (ih ho) _ (mem_of_lookup hlookup)
  | inner owner slot ih =>
    intro site hs
    cases slot with
    | pattern index =>
      obtain ⟨outer, ho, hs⟩ := Option.bind_eq_some_iff.mp hs
      unfold Site.pattern? at hs
      split at hs
      · rename_i s hget
        split at hs
        · cases hs
          exact pattern outer (ih ho) s (List.mem_of_getElem? hget)
        · cases hs
      · cases hs
    | capture use key =>
      obtain ⟨outer, ho, hs⟩ := Option.bind_eq_some_iff.mp hs
      unfold Site.capture? at hs
      split at hs
      · cases hs
      · rename_i s hb
        obtain ⟨e, he, rfl⟩ := Option.map_eq_some_iff.mp hs
        exact capture outer (ih ho) s hb use e (List.mem_of_find?_eq_some he)

theorem GrammarSource.exists_entry {owner : Place} {name : String} (h : (g.site? (.named owner name)).isSome) :
    ∃ site s, g.site? owner = some site ∧ (name, s) ∈ site.repository := by
  obtain ⟨site, hs⟩ := Option.isSome_iff_exists.mp h
  obtain ⟨outer, ho, hs⟩ := Option.bind_eq_some_iff.mp hs
  obtain ⟨s, hlookup, _⟩ := Option.map_eq_some_iff.mp hs
  exact ⟨outer, s, ho, mem_of_lookup hlookup⟩

/-! ## Plain names -/

/-- No name in the repositories of a rule and of those in it holds a stroke, and no capture has
a repository. -/
inductive RuleSource.Plain : RuleSource → Prop
  | mk {s : RuleSource} : (∀ e ∈ s.repository, '/' ∉ e.1.toList) → (∀ e ∈ s.repository, Plain e.2) →
    (∀ t ∈ s.patterns, Plain t) → (∀ use, ∀ e ∈ s.capturesFor use, e.2.repository = []) →
    (∀ use, ∀ e ∈ s.capturesFor use, ∀ t ∈ e.2.patterns, Plain t) → Plain s

def Body.Plain : Body → Prop
  | group ps => ∀ t ∈ ps, t.Plain
  | rule s => s.Plain

structure Site.Plain (site : Site) : Prop where
  body : site.body.Plain
  repository : ∀ e ∈ site.repository, '/' ∉ e.1.toList ∧ e.2.Plain

structure GrammarSource.Plain (g : GrammarSource) : Prop where
  patterns : ∀ t ∈ g.patterns, t.Plain
  repository : ∀ e ∈ g.repository, '/' ∉ e.1.toList ∧ e.2.Plain

namespace RuleSource.Plain

theorem repository {s : RuleSource} : s.Plain → ∀ e ∈ s.repository, '/' ∉ e.1.toList ∧ e.2.Plain
  | .mk hnames hentries _ _ _ => fun e he => ⟨hnames e he, hentries e he⟩

theorem patterns {s : RuleSource} : s.Plain → ∀ t ∈ s.patterns, t.Plain
  | .mk _ _ h _ _ => h

theorem captures {s : RuleSource} :
    s.Plain → ∀ use, ∀ e ∈ s.capturesFor use, e.2.repository = [] ∧ ∀ t ∈ e.2.patterns, t.Plain
  | .mk _ _ _ hnone hps => fun use e he => ⟨hnone use e he, hps use e he⟩

theorem site {s : RuleSource} (h : s.Plain) : Site.Plain ⟨.rule s, s.repository⟩ :=
  ⟨h, h.repository⟩

theorem ofEntry {s : RuleSource} (h : s.Plain) : (Site.ofEntry s).Plain := by
  unfold Site.ofEntry
  by_cases hs : s.reference.isSome = true
  · rw [if_pos hs]
    refine ⟨fun t ht => ?_, List.forall_mem_nil _⟩
    rw [List.mem_singleton.mp ht]
    exact h
  · rw [if_neg hs]
    exact h.site

end RuleSource.Plain

theorem Body.Plain.patterns {b : Body} (h : b.Plain) : ∀ t ∈ b.patterns, t.Plain := by
  cases b with
  | group ps => exact h
  | rule s => exact RuleSource.Plain.patterns h

namespace GrammarSource.Plain

theorem site? (hg : g.Plain) {p : Place} {site : Site} (h : g.site? p = some site) : site.Plain := by
  refine of_site? (S := Site.Plain) ⟨hg.patterns, hg.repository⟩ ?_ ?_ ?_ h
  · exact fun site hsite e he => (hsite.repository e he).2.ofEntry
  · exact fun site hsite s hs => (hsite.body.patterns s hs).site
  · intro site hsite s hb use e he
    have hbody := hsite.body
    rw [hb] at hbody
    obtain ⟨hnone, hps⟩ := RuleSource.Plain.captures hbody use e he
    refine ⟨hps, ?_⟩
    rw [hnone]
    exact List.forall_mem_nil _

theorem capturesBringNone (hg : g.Plain) : g.CapturesBringNone := by
  intro p site hs hcapture
  cases p with
  | top => cases hcapture
  | named owner name => cases hcapture
  | inner owner slot =>
    cases slot with
    | pattern index => cases hcapture
    | capture use key =>
      obtain ⟨outer, ho, hs⟩ := Option.bind_eq_some_iff.mp hs
      have hbody := (hg.site? ho).body
      unfold Site.capture? at hs
      split at hs
      · cases hs
      · rename_i s hb
        rw [hb] at hbody
        obtain ⟨e, he, rfl⟩ := Option.map_eq_some_iff.mp hs
        exact (RuleSource.Plain.captures hbody use e (List.mem_of_find?_eq_some he)).1

end GrammarSource.Plain

namespace Place

theorem address_named (owner : Place) (name : String) :
    (∃ o path, owner.address = .named o path ∧ (named owner name).address = .named o (path ++ "/" ++ name)) ∨
      (∀ o path, owner.address ≠ .named o path) ∧ (named owner name).address = .named owner.address ("/" ++ name) := by
  simp only [address]
  cases owner.address with
  | named o path => exact .inl ⟨o, path, rfl, rfl⟩
  | root => exact .inr ⟨(fun _ _ h => by cases h), rfl⟩
  | inner o slot => exact .inr ⟨(fun _ _ h => by cases h), rfl⟩

theorem path_ne_empty {p : Place} {o : Address} {path : String} (h : p.address = .named o path) : path.toList ≠ [] := by
  cases p with
  | top => cases h
  | inner owner slot => cases h
  | named owner name =>
    rcases address_named owner name with ⟨o', path', _, ha⟩ | ⟨_, ha⟩
    · rw [ha] at h
      cases h
      simp
    · rw [ha] at h
      cases h
      simp

end Place

/-- A path ends with the name after its last stroke. -/
theorem split_path {a b : List Char} : ∀ {w v : List Char}, '/' ∉ a → '/' ∉ b → w ++ '/' :: a = v ++ '/' :: b → w = v ∧ a = b
  | [], [], _, _, h => ⟨rfl, (List.cons.inj h).2⟩
  | [], c :: v, ha, _, h => by
    rw [List.nil_append, List.cons_append, List.cons.injEq] at h
    exact absurd (h.2 ▸ List.mem_append_right v (List.mem_cons_self ..)) ha
  | c :: w, [], _, hb, h => by
    rw [List.nil_append, List.cons_append, List.cons.injEq] at h
    exact absurd (h.2 ▸ List.mem_append_right w (List.mem_cons_self ..)) hb
  | c :: w, d :: v, ha, hb, h => by
    rw [List.cons_append, List.cons_append, List.cons.injEq] at h
    obtain ⟨hw, hab⟩ := split_path ha hb h.2
    exact ⟨by rw [h.1, hw], hab⟩

theorem site?_owner {owner : Place} {name : String} (h : (g.site? (.named owner name)).isSome) : (g.site? owner).isSome := by
  obtain ⟨site, _, hsite, _⟩ := GrammarSource.exists_entry h
  rw [hsite]
  rfl

/-- Names without strokes keep rules apart. -/
theorem GrammarSource.keysApart_of_names
    (hnames : ∀ owner name, (g.site? (.named owner name)).isSome → '/' ∉ name.toList) : g.KeysApart := by
  intro p
  induction p with
  | top =>
    intro q _ _ ha
    exact (Place.eq_top_of_address ha.symm).symm
  | inner owner slot ih =>
    intro q hp hq ha
    cases q with
    | top => cases ha
    | named owner' name' =>
      rcases Place.address_named owner' name' with ⟨_, _, _, h⟩ | ⟨_, h⟩
      · rw [h] at ha
        cases ha
      · rw [h] at ha
        cases ha
    | inner owner' slot' =>
      have hsome {o : Place} {sl : Slot} (h : (g.site? (.inner o sl)).isSome) : (g.site? o).isSome := by
        obtain ⟨site, hs⟩ := Option.isSome_iff_exists.mp h
        cases sl with
        | pattern index =>
          obtain ⟨outer, ho, _⟩ := Option.bind_eq_some_iff.mp hs
          simp [ho]
        | capture use key =>
          obtain ⟨outer, ho, _⟩ := Option.bind_eq_some_iff.mp hs
          simp [ho]
      rw [Place.address, Place.address, Address.inner.injEq] at ha
      rw [ih owner' (hsome hp) (hsome hq) ha.1, ha.2]
  | named owner name ih =>
    intro q hp hq ha
    cases q with
    | top => exact Place.eq_top_of_address ha
    | inner owner' slot' =>
      rcases Place.address_named owner name with ⟨_, _, _, h⟩ | ⟨_, h⟩
      · rw [h] at ha
        cases ha
      · rw [h] at ha
        cases ha
    | named owner' name' =>
      have hname := hnames _ _ hp
      have hname' := hnames _ _ hq
      have hsplit {w v : String} (h : w ++ "/" ++ name = v ++ "/" ++ name') : w = v ∧ name = name' := by
        have hlist := congrArg String.toList h
        simp only [String.toList_append, List.append_assoc] at hlist
        obtain ⟨hw, hn⟩ := split_path hname hname' hlist
        exact ⟨String.toList_inj.mp hw, String.toList_inj.mp hn⟩
      rcases Place.address_named owner name with ⟨o, w, ho, h⟩ | ⟨ho, h⟩
      · rcases Place.address_named owner' name' with ⟨o', w', ho', h'⟩ | ⟨ho', h'⟩
        · rw [h, h', Address.named.injEq] at ha
          obtain ⟨hw, hn⟩ := hsplit ha.2
          rw [ih owner' (site?_owner hp) (site?_owner hq) (by rw [ho, ho', ha.1, hw]), hn]
        · rw [h, h', Address.named.injEq] at ha
          obtain ⟨hw, _⟩ := hsplit (v := "") (by simpa using ha.2)
          exact absurd (by rw [hw]; rfl) (Place.path_ne_empty ho)
      · rcases Place.address_named owner' name' with ⟨o', w', ho', h'⟩ | ⟨ho', h'⟩
        · rw [h, h', Address.named.injEq] at ha
          obtain ⟨hw, _⟩ := hsplit (w := "") (by simpa using ha.2)
          exact absurd (by rw [← hw]; rfl) (Place.path_ne_empty ho')
        · rw [h, h', Address.named.injEq] at ha
          obtain ⟨_, hn⟩ := hsplit (w := "") (v := "") (by simpa using ha.2)
          rw [ih owner' (site?_owner hp) (site?_owner hq) ha.1, hn]

theorem GrammarSource.Plain.keysApart (hg : g.Plain) : g.KeysApart := by
  refine keysApart_of_names fun owner name h => ?_
  obtain ⟨site, s, hsite, hmem⟩ := exists_entry h
  exact ((hg.site? hsite).repository _ hmem).1

theorem RuleSource.plain_of {s : RuleSource} (hcaptures : ∀ use, s.capturesFor use = [])
    (hnames : ∀ e ∈ s.repository, '/' ∉ e.1.toList) (hentries : ∀ e ∈ s.repository, e.2.Plain)
    (hpatterns : ∀ t ∈ s.patterns, t.Plain) : s.Plain := by
  refine .mk hnames hentries hpatterns ?_ ?_
  · intro use e he
    rw [hcaptures] at he
    cases he
  · intro use e he
    rw [hcaptures] at he
    cases he

end Highlight.Grammar
