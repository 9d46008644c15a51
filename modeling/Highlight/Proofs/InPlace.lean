import Highlight.Proofs.CaptureOrder
import Mathlib.Data.List.Infix

/-!
# Compiling in place

Rules may refer to rules that are not done. So when rules are compiled in place, a slot is
reserved for each before anything in it is looked at, and only when all of this is done its
rule is put there. In between the slot is owed. However rules refer to one another, what goes
on while one rule is compiled leaves the slots that are owed around it alone, and fills all
those that it reserves, unless a pattern cannot be read. And it ends, since each rule outweighs
what it leads on to.
-/

namespace Highlight.Grammar

variable {engine : Engine} {g : GrammarSource} {n m : Node}

/-! ## Slots -/

/-- The rules compiled so far, with the addresses of their slots. A slot that is owed is empty. -/
structure Arena where
  addresses : List Address
  rules : List (Option (Rule Nat Pattern))

inductive Stop where
  /-- Rules lead on to one another deeper than was allowed for. -/
  | tooDeep
  | fault (error : Error)

namespace Arena

def empty : Arena := ⟨[], []⟩

def reserve (a : Arena) (address : Address) : Arena :=
  ⟨a.addresses ++ [address], a.rules ++ [none]⟩

def put (a : Arena) (id : Nat) (r : Rule Nat Pattern) : Arena :=
  { a with rules := a.rules.set id (some r) }

def ruleOf (engine : Engine) (a : Arena) (n : Node) : Except Stop (Rule Nat Pattern) :=
  ((n.rule.renumber a.addresses.idxOf).read (readPattern engine n.innerLabel)).mapError .fault

def follow (engine : Engine) (fill : Node → Arena → Except Stop Arena) (a : Arena) : Step → Except Stop Arena
  | .read label source => ((readPattern engine label source).map fun _ => a).mapError .fault
  | .visit m => fill m a

def fillWithin (engine : Engine) : (depth : Nat) → Node → Arena → Except Stop Arena
  | 0, _, _ => .error .tooDeep
  | depth + 1, n, a =>
    if n.address ∈ a.addresses then .ok a
    else do
      -- the slot is owed until all that the node leads on to has been compiled
      let b ← n.steps.foldlM (follow engine (fillWithin engine depth)) (a.reserve n.address)
      let r ← b.ruleOf engine n
      return b.put a.rules.length r

end Arena

def compileWithin (engine : Engine) (depth : Nat) (g : GrammarSource) : Except Stop Arena :=
  match g.scopeName with
  | none => .error (.fault .missingScopeName)
  | some scopeName => Arena.empty.fillWithin engine depth (rootNode g scopeName)

/-! ## Reading what a rule gives -/

theorem read_of_le {ι π ρ ε ε' : Type} {parse : π → Except ε ρ} {parse' : π → Except ε' ρ}
    (hle : ∀ p q, parse p = .ok q → parse' p = .ok q) {r : Rule ι π} {r' : Rule ι ρ} (h : r.read parse = .ok r') :
    r.read parse' = .ok r' := by
  cases r with
  | container ps =>
    rw [Rule.read_container.mp h]
    rfl
  | piece name p cs =>
    obtain ⟨q, hq, rfl⟩ := Rule.read_piece.mp h
    exact Rule.read_piece.mpr ⟨q, hle p q hq, rfl⟩
  | region r =>
    obtain ⟨opening, closing, ho, hc, rfl⟩ := Rule.read_region.mp h
    refine Rule.read_region.mpr ⟨opening, closing, hle _ _ ho, ?_, rfl⟩
    cases hclosing : r.closing with
    | fixed p =>
      rw [hclosing] at hc
      obtain ⟨q, hq, rfl⟩ := Results.map_eq_ok.mp hc
      exact Results.map_eq_ok.mpr ⟨q, hle p q hq, rfl⟩
    | backReferenced source =>
      rw [hclosing] at hc
      cases hc
      rfl

theorem readPattern_eq_ok {label source : String} {p : Pattern} :
    readPattern engine label source = .ok p ↔ engine.read source = .ok p :=
  Results.mapError_eq_ok

theorem readPattern_eq_error {label source : String} {e : Error} :
    readPattern engine label source = .error e ↔ ∃ d, engine.read source = .error d ∧ .invalidPattern label source d = e :=
  Results.mapError_eq_error

theorem Node.read_of_source {source : String} (h : source ∈ n.rule.sources) : .read n.innerLabel source ∈ n.steps := by
  unfold rule at h
  unfold steps
  cases hb : n.body with
  | group ps =>
    rw [hb] at h
    cases h
  | rule s =>
    simp only [hb] at h ⊢
    cases hs : s.shape with
    | group =>
      rw [hs] at h
      cases h
    | piece p =>
      rw [hs] at h
      rw [List.mem_singleton.mp h]
      exact List.mem_cons_self ..
    | region opening closing lasting =>
      rw [hs] at h
      rcases List.mem_cons.mp h with rfl | h
      · simp
      · simp only [List.cons_append, List.mem_cons, List.mem_append, List.mem_map]
        exact .inr (.inl (.inl (.inr ⟨source, h, rfl⟩)))

namespace Draft

theorem reads_prefix_foldl (ih : ∀ m, .visit m ∈ n.steps → ∀ d : Draft, d.reads <+: (d.layOut m).reads) :
    ∀ (steps : List Step) (d : Draft), steps ⊆ n.steps → d.reads <+: (steps.foldl follow d).reads
  | [], _, _ => List.prefix_rfl
  | st :: steps, d, hs => by
    have hst : st ∈ n.steps := hs (List.mem_cons_self ..)
    have hstep : d.reads <+: (d.follow st).reads := by
      cases st with
      | read label source => exact List.prefix_append ..
      | visit m => exact ih m hst d
    exact hstep.trans (reads_prefix_foldl ih steps (d.follow st) (List.subset_of_cons_subset hs))

theorem reads_prefix_layOut (n : Node) (d : Draft) : d.reads <+: (d.layOut n).reads := by
  rw [layOut_eq]
  by_cases hmem : n.address ∈ d.addresses
  · rw [if_pos hmem]
  · rw [if_neg hmem]
    exact reads_prefix_foldl (fun m hm d => reads_prefix_layOut m d) n.steps (d.add n) (List.Subset.refl _)
termination_by n.weight
decreasing_by exact Node.weight_lt_of_visit hm

theorem keys_of_layOut {d : Draft} (hk : ∀ k, Known n.sight k → k ∈ d.addresses ∨ k = n.address)
    (hmem : n.address ∉ d.addresses) : ∀ k ∈ n.rule.keys, k ∈ (d.layOut n).addresses := by
  have hgood : Hereditary fun _ => True := fun _ _ _ _ _ _ _ => trivial
  obtain ⟨hgrows, _, hfirst⟩ := grows_layOut hgood n d trivial hk
  rcases hgrows.added n ((hfirst hmem).subset (List.mem_append_right _ (List.mem_singleton_self n))) with h | h
  · exact absurd (List.mem_map_of_mem h) hmem
  · exact h.2

structure Makes (d : Draft) (engine : Engine) (n : Node) (r : Rule Nat Pattern) : Prop where
  keys : ∀ k ∈ n.rule.keys, k ∈ d.addresses
  rule : ∀ label, (n.rule.renumber d.addresses.idxOf).read (readPattern engine label) = .ok r

theorem addresses_prefix {d e : Draft} {nodes : List Node} (h : e.nodes = d.nodes ++ nodes) : d.addresses <+: e.addresses := by
  unfold addresses
  rw [h, List.map_append]
  exact List.prefix_append ..

theorem idxOf_of_prefix {l l' : List Address} (h : l <+: l') {k : Address} (hk : k ∈ l) : l'.idxOf k = l.idxOf k := by
  obtain ⟨rest, rfl⟩ := h
  exact List.idxOf_append_of_mem hk

theorem Makes.mono {d e : Draft} {r : Rule Nat Pattern} (h : d.Makes engine n r) (hde : d.addresses <+: e.addresses) :
    e.Makes engine n r where
  keys k hk := hde.subset (h.keys k hk)
  rule label := by
    rw [← h.rule label]
    congr 1
    exact Rule.renumber_congr fun k hk => idxOf_of_prefix hde (h.keys k hk)

theorem exists_makes {d : Draft} (hkeys : ∀ k ∈ n.rule.keys, k ∈ d.addresses)
    (hread : ∀ source ∈ n.rule.sources, Readable engine source) : ∃ r, d.Makes engine n r := by
  have hsources : ∀ source ∈ (n.rule.renumber d.addresses.idxOf).sources, ∃ p, readPattern engine "" source = .ok p := by
    rw [Rule.sources_renumber]
    exact fun source hs => readPattern_iff.mpr (hread source hs)
  obtain ⟨r, hr⟩ := Rule.exists_read_iff.mpr hsources
  exact ⟨r, hkeys, fun label => read_of_le (fun p q hq => readPattern_eq_ok.mpr (readPattern_eq_ok.mp hq)) hr⟩

end Draft

/-! ## What is owed -/

/-- What becomes of an arena while a draft grows. Where all patterns that come up can be read, the
slots that were there stay as they are, and those that are new are filled with the rules of the new nodes.
Otherwise the first pattern that cannot be read is the fault. -/
inductive Outcome (engine : Engine) (d e : Draft) (a : Arena) : Except Stop Arena → Prop
  | filled {nodes : List Node} {reads : List (String × String)} {rules : List (Rule Nat Pattern)} :
    e.nodes = d.nodes ++ nodes → e.reads = d.reads ++ reads → (∀ x ∈ reads, Readable engine x.2) →
    List.Forall₂ (e.Makes engine) nodes rules → Outcome engine d e a (.ok ⟨e.addresses, a.rules ++ rules.map some⟩)
  | fault {before : List (String × String)} {label source : String} {error : Regex.Error} :
    d.reads ++ before ++ [(label, source)] <+: e.reads → (∀ x ∈ before, Readable engine x.2) →
    engine.read source = .error error → Outcome engine d e a (.error (.fault (.invalidPattern label source error)))

namespace Outcome

variable {d e f : Draft} {a b : Arena} {x : Except Stop Arena}

theorem refl (h : a.addresses = d.addresses) : Outcome engine d d a (.ok a) := by
  have := @filled engine d d a [] [] [] (List.append_nil _).symm (List.append_nil _).symm (List.forall_mem_nil _) .nil
  rwa [List.map_nil, List.append_nil, ← h] at this

theorem of_ok (h : Outcome engine d e a (.ok b)) : b.addresses = e.addresses ∧ d.addresses <+: e.addresses := by
  cases h with
  | filled hn _ _ _ => exact ⟨rfl, Draft.addresses_prefix hn⟩

theorem mono {stop : Stop} (h : Outcome engine d e a (.error stop)) (hef : e.reads <+: f.reads) :
    Outcome engine d f a (.error stop) := by
  cases h with
  | fault hreads hbefore herror => exact .fault (hreads.trans hef) hbefore herror

theorem trans (h : Outcome engine d e a (.ok b)) (hx : Outcome engine e f b x) : Outcome engine d f a x := by
  cases h with
  | @filled nodes reads rules hn hr hread hmade =>
    cases hx with
    | @filled nodes' reads' rules' hn' hr' hread' hmade' =>
      have := @filled engine d f a (nodes ++ nodes') (reads ++ reads') (rules ++ rules') (by rw [hn', hn, List.append_assoc])
        (by rw [hr', hr, List.append_assoc]) (List.forall_mem_append.mpr ⟨hread, hread'⟩)
        (List.rel_append (hmade.imp fun n r h => h.mono (Draft.addresses_prefix hn')) hmade')
      rwa [List.map_append, ← List.append_assoc] at this
    | @fault before label source error hreads hbefore herror =>
      have hall : d.reads ++ (reads ++ before) ++ [(label, source)] <+: f.reads := by rwa [← List.append_assoc, ← hr]
      exact .fault hall (List.forall_mem_append.mpr ⟨hread, hbefore⟩) herror

theorem put {r : Rule Nat Pattern} (h : Outcome engine (d.add n) e (a.reserve n.address) (.ok b)) (hr : e.Makes engine n r) :
    Outcome engine d e a (.ok (b.put a.rules.length r)) := by
  cases h with
  | @filled nodes reads rules hn hreads hread hmade =>
    have hput : ((a.reserve n.address).rules ++ rules.map some).set a.rules.length (some r) =
        a.rules ++ (r :: rules).map some := by
      rw [Arena.reserve, List.append_assoc, List.set_append_right _ _ (Nat.le_refl _), Nat.sub_self]
      rfl
    have hnodes : e.nodes = d.nodes ++ n :: nodes := by
      rw [hn, Draft.add, List.append_assoc]
      rfl
    have := @filled engine d e a (n :: nodes) reads (r :: rules) hnodes hreads hread (.cons hr hmade)
    rwa [← hput] at this

end Outcome

namespace Arena

theorem ruleOf_of_makes {d : Draft} {b : Arena} {r : Rule Nat Pattern} (h : d.Makes engine n r)
    (hb : b.addresses = d.addresses) : b.ruleOf engine n = .ok r := by
  unfold ruleOf
  rw [hb, h.rule]
  rfl

variable {d : Draft} {a b : Arena} {fill : Node → Arena → Except Stop Arena}

theorem outcome_read (h : a.addresses = d.addresses) (label source : String) :
    Outcome engine d (d.addRead label source) a (a.follow engine fill (.read label source)) := by
  cases hr : readPattern engine label source with
  | error e =>
    obtain ⟨error, herror, rfl⟩ := readPattern_eq_error.mp hr
    have hfollow : a.follow engine fill (.read label source) = .error (.fault (.invalidPattern label source error)) := by
      simp only [follow, hr]
      rfl
    rw [hfollow]
    have hfirst : d.reads ++ [] ++ [(label, source)] <+: (d.addRead label source).reads := by
      rw [List.append_nil]
      exact List.prefix_rfl
    exact .fault hfirst (List.forall_mem_nil _) herror
  | ok p =>
    have hfollow : a.follow engine fill (.read label source) = .ok a := by
      simp only [follow, hr]
      rfl
    have := @Outcome.filled engine d (d.addRead label source) a [] [(label, source)] [] (List.append_nil _).symm rfl
      (List.forall_mem_singleton.mpr ⟨p, readPattern_eq_ok.mp hr⟩) .nil
    rw [hfollow]
    rwa [List.map_nil, List.append_nil, show (d.addRead label source).addresses = a.addresses from h.symm] at this

theorem outcome_foldlM (ih : ∀ m, .visit m ∈ n.steps → ∀ (d : Draft) (a : Arena), a.addresses = d.addresses →
    (∀ k, Known m.sight k → k ∈ d.addresses ∨ k = m.address) → Outcome engine d (d.layOut m) a (fill m a)) :
    ∀ (steps : List Step) (d : Draft) (a : Arena), steps ⊆ n.steps → a.addresses = d.addresses →
      (∀ k, Known n.sight k → k ∈ d.addresses) →
      Outcome engine d (steps.foldl Draft.follow d) a (steps.foldlM (follow engine fill) a)
  | [], d, a, _, ha, _ => .refl ha
  | st :: steps, d, a, hs, ha, hk => by
    have hst : st ∈ n.steps := hs (List.mem_cons_self ..)
    -- what is known around the rule is known around each rule that it leads on to
    have hstep : Outcome engine d (d.follow st) a (a.follow engine fill st) := by
      cases st with
      | read label source => exact outcome_read ha label source
      | visit m =>
        refine ih m hst d a ha fun k hkm => ?_
        rcases known_of_visit hst hkm with h | h
        · exact .inl (hk k h)
        · exact .inr h
    rw [List.foldlM_cons, List.foldl_cons]
    cases hx : a.follow engine fill st with
    | error stop =>
      rw [hx] at hstep
      refine hstep.mono ?_
      exact Draft.reads_prefix_foldl (fun m _ d => Draft.reads_prefix_layOut m d) steps (d.follow st) (List.subset_of_cons_subset hs)
    | ok b =>
      rw [hx] at hstep
      obtain ⟨hb, hde⟩ := hstep.of_ok
      exact hstep.trans (outcome_foldlM ih steps (d.follow st) b (List.subset_of_cons_subset hs) hb fun k h => hde.subset (hk k h))

theorem readable_of_foldlM {label source : String} : ∀ {steps : List Step} {a : Arena},
    steps.foldlM (follow engine fill) a = .ok b → .read label source ∈ steps → Readable engine source
  | st :: steps, a, h, hs => by
    rw [List.foldlM_cons] at h
    obtain ⟨c, hc, h⟩ := Results.bind_eq_ok.mp h
    rcases List.mem_cons.mp hs with rfl | hs
    · obtain ⟨p, hp, _⟩ := Results.map_eq_ok.mp (Results.mapError_eq_ok.mp hc)
      exact ⟨p, readPattern_eq_ok.mp hp⟩
    · exact readable_of_foldlM h hs

/-- Compiling a rule in place does what laying it out does. -/
theorem outcome_fillWithin : ∀ (depth : Nat) (n : Node) (d : Draft) (a : Arena), n.weight < depth →
    a.addresses = d.addresses → (∀ k, Known n.sight k → k ∈ d.addresses ∨ k = n.address) →
    Outcome engine d (d.layOut n) a (a.fillWithin engine depth n)
  | depth + 1, n, d, a, hdepth, ha, hk => by
    have hlayOut := Draft.layOut_eq n d
    rw [fillWithin, ha]
    by_cases hmem : n.address ∈ d.addresses
    · rw [if_pos hmem] at hlayOut ⊢
      rw [hlayOut]
      exact .refl ha
    · have hkeys := Draft.keys_of_layOut hk hmem
      rw [if_neg hmem] at hlayOut ⊢
      have hreserve : (a.reserve n.address).addresses = (d.add n).addresses := by
        rw [Draft.addresses_add, ← ha]
        rfl
      have hsteps := outcome_foldlM (fun m hm d a ha hk => outcome_fillWithin depth m d a
        (Nat.lt_of_lt_of_le (Node.weight_lt_of_visit hm) (Nat.le_of_lt_succ hdepth)) ha hk) n.steps (d.add n)
        (a.reserve n.address) (List.Subset.refl _) hreserve fun k h => by
          rw [Draft.addresses_add]
          rcases hk k h with h | h
          · exact List.mem_append_left _ h
          · exact List.mem_append_right _ (List.mem_singleton.mpr h)
      rw [← hlayOut] at hsteps
      cases hx : n.steps.foldlM (follow engine (fillWithin engine depth)) (a.reserve n.address) with
      | error stop =>
        -- the slots that are owed are given up with the fault
        rw [hx] at hsteps
        cases hsteps with
        | fault hreads hbefore herror => exact .fault hreads hbefore herror
      | ok b =>
        rw [hx] at hsteps
        obtain ⟨r, hr⟩ := Draft.exists_makes hkeys fun source hs => readable_of_foldlM hx (Node.read_of_source hs)
        have hdone := hsteps.put hr
        simp only [bind, Except.bind]
        rw [ruleOf_of_makes hr hsteps.of_ok.1]
        exact hdone
termination_by depth => depth

end Arena

/-! ## Grammars in place -/

section

variable {scopeName : String} {x : Except Stop Arena}

theorem eq_of_makes {d : Draft} {label : String} {nodes : List Node} {rules : List (Rule Nat Pattern)}
    (h : List.Forall₂ (d.Makes engine) nodes rules) : ∀ {rules' : List (Rule Nat Pattern)},
      List.Forall₂ (fun (n : Node) r => (n.rule.renumber d.addresses.idxOf).read (readPattern engine label) = .ok r) nodes rules' →
      rules = rules' := by
  induction h with
  | nil =>
    intro rules' h'
    cases h'
    rfl
  | cons hr _ ih =>
    intro rules' h'
    cases h' with
    | cons hr' h' =>
      rw [hr.rule, Except.ok.injEq] at hr'
      rw [hr', ih h']

theorem outcome_root {depth : Nat} (h : (rootNode g scopeName).weight < depth) :
    Outcome engine .empty (g.draft scopeName) .empty (Arena.empty.fillWithin engine depth (rootNode g scopeName)) :=
  Arena.outcome_fillWithin depth (rootNode g scopeName) .empty .empty h rfl fun _ hk => .inr (known_root hk)

theorem compile_of_scopeless (h : g.scopeName = none) : compile engine g = .error .missingScopeName := by
  unfold compile
  rw [h]

/-- A grammar is compiled to the rules that are filled in, or fails as filling them in does. -/
theorem compile_of_outcome (hname : g.scopeName = some scopeName) (h : Outcome engine .empty (g.draft scopeName) .empty x) :
    (∃ G, compile engine g = .ok G ∧ x.map (·.rules) = .ok (G.rules.toList.map some)) ∨
      ∃ label source error, (label, source) ∈ (g.draft scopeName).reads ∧ engine.read source = .error error ∧
        compile engine g = .error (.invalidPattern label source error) ∧
        x = .error (.fault (.invalidPattern label source error)) := by
  cases h with
  | @filled nodes reads rules hn _ _ hmade =>
    have hn : (g.draft scopeName).nodes = nodes := hn
    have hreadable : ∀ r ∈ (g.draft scopeName).rules, ∀ source ∈ r.sources, Readable engine source := by
      intro r hr source hs
      obtain ⟨n, hmem, rfl⟩ := List.mem_map.mp hr
      obtain ⟨i, hi⟩ := List.mem_iff_getElem?.mp (hn ▸ hmem)
      have hrel := rel_getElem? hmade i
      rw [hi] at hrel
      generalize rules[i]? = r? at hrel
      cases hrel with
      | some hr => exact readPattern_iff.mp (Rule.exists_read_iff.mp ⟨_, hr.rule ""⟩ source hs)
    obtain ⟨G, hG⟩ := exists_compile hname hreadable
    obtain ⟨hscope, hrules⟩ := compile_eq_ok hG
    obtain rfl : scopeName = G.scopeName := Option.some.inj (hname.symm.trans hscope)
    rw [hn] at hrules
    refine .inl ⟨G, hG, ?_⟩
    rw [← eq_of_makes hmade hrules]
    rfl
  | @fault before label source error hreads hbefore herror =>
    obtain ⟨after, hreads⟩ := hreads
    have hreads : (g.draft scopeName).reads = before ++ (label, source) :: after := by
      rw [← hreads, List.append_assoc]
      rfl
    refine .inr ⟨label, source, error, by simp [hreads], herror, ?_, rfl⟩
    have hfault : ((g.draft scopeName).reads.forM fun x => discard (readPattern engine x.1 x.2)) =
        .error (.invalidPattern label source error) := by
      rw [hreads]
      refine Results.forM_eq_error ?_ fun y hy => ?_
      · rw [readPattern_eq_error.mpr ⟨error, herror, rfl⟩]
        rfl
      · obtain ⟨p, hp⟩ := readPattern_iff.mpr (hbefore y hy)
        rw [hp]
        rfl
    unfold compile
    rw [hname]
    show ((g.draft scopeName).reads.forM (fun x => discard (readPattern engine x.1 x.2)) >>= fun _ => _) = _
    rw [hfault]
    rfl

/-- Compiling in place ends, with the rules that compiling ends with, or with the same fault. -/
theorem exists_depth (g : GrammarSource) : ∃ depth, ∀ d, depth ≤ d →
    (compileWithin engine d g).map (·.rules) = ((compile engine g).mapError .fault).map fun G => G.rules.toList.map some := by
  cases hname : g.scopeName with
  | none =>
    refine ⟨0, fun d _ => ?_⟩
    unfold compileWithin
    rw [hname, compile_of_scopeless hname]
    rfl
  | some scopeName =>
    refine ⟨(rootNode g scopeName).weight + 1, fun d hd => ?_⟩
    have hwithin : compileWithin engine d g = Arena.empty.fillWithin engine d (rootNode g scopeName) := by
      unfold compileWithin
      rw [hname]
    rw [hwithin]
    rcases compile_of_outcome hname (outcome_root hd) with ⟨G, hG, hx⟩ | ⟨label, source, error, _, _, hG, hx⟩
    · rw [hx, hG]
      rfl
    · rw [hx, hG]
      rfl

end

end Highlight.Grammar
