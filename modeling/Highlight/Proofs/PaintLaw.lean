import Highlight.Proofs.Segments
import Highlight.Proofs.Step

/-!
# What painting keeps

A line is painted on from where the paint of the step before stopped, with the scopes of the
state and those that names and captures add. A property of the line, and of the position up to
which it is painted, that painting on with such scopes keeps is kept by all steps and scans.
This goes through the texts of captures, which are tokenized again up to their own end, by
induction on how deep they lie.
-/

namespace Highlight

/-- A property of lines painted up to a position is kept where they are painted on with certain
scopes. -/
structure Painting.Law (Holds : Nat → Painting → Prop) (Allowed : List String → Prop) : Prop where
  paint : ∀ {i j : Nat} {p : Painting} {scopes : List String}, i ≤ j → Allowed scopes → Holds i p →
    Holds j (p.paint i j scopes)
  named : ∀ {scopes : List String} (template : Option String) (groups : List (Option String)), Allowed scopes →
    Allowed (scopes ++ Scope.ofTemplate template groups)

variable {Holds : Nat → Painting → Prop} {Allowed : List String → Prop}

structure State.Over (Allowed : List String → Prop) (s : State) : Prop where
  base : Allowed s.baseScopes
  outer : ∀ f ∈ s.frames, Allowed f.outer
  named : ∀ f ∈ s.frames, Allowed f.named
  inner : ∀ f ∈ s.frames, Allowed f.inner

namespace State.Over

variable {s : State}

theorem start {rule : Nat} {scopes : List String} (h : Allowed scopes) : (State.start rule scopes).Over Allowed :=
  ⟨h, List.forall_mem_nil _, List.forall_mem_nil _, List.forall_mem_nil _⟩

theorem scopes (h : s.Over Allowed) : Allowed s.scopes := by
  unfold State.scopes
  split
  · exact h.base
  · rename_i f below hf
    exact h.inner f (by simp [hf])

theorem sublist {frames : List Frame} (h : s.Over Allowed) (hf : ∀ f ∈ frames, f ∈ s.frames) :
    Over Allowed { s with frames := frames } :=
  ⟨h.base, fun f hm => h.outer f (hf f hm), fun f hm => h.named f (hf f hm), fun f hm => h.inner f (hf f hm)⟩

theorem atLineStart (h : s.Over Allowed) : s.atLineStart.Over Allowed := by
  refine ⟨h.base, ?_, ?_, ?_⟩
  · intro f hf
    obtain ⟨f', hf', rfl⟩ := List.mem_map.mp hf
    exact h.outer f' hf'
  · intro f hf
    obtain ⟨f', hf', rfl⟩ := List.mem_map.mp hf
    exact h.named f' hf'
  · intro f hf
    obtain ⟨f', hf', rfl⟩ := List.mem_map.mp hf
    exact h.inner f' hf'

theorem push {f : Frame} (h : s.Over Allowed) (ho : Allowed f.outer) (hn : Allowed f.named) (hi : Allowed f.inner) :
    (s.push f).Over Allowed := by
  refine ⟨h.base, ?_, ?_, ?_⟩
  · exact List.forall_mem_cons.mpr ⟨ho, h.outer⟩
  · exact List.forall_mem_cons.mpr ⟨hn, h.named⟩
  · exact List.forall_mem_cons.mpr ⟨hi, h.inner⟩

end State.Over

def Retokenize.Keeps (again : Retokenize) (Holds : Nat → Painting → Prop) (Allowed : List String → Prop) : Prop :=
  ∀ (text : Array Char) (start rule : Nat) (scopes : List String) (p p' : Painting), start ≤ text.size →
    Allowed scopes → Holds start p → again text start (.start rule scopes) p = .ok p' → Holds text.size p'

def Progress.Keeps (Holds : Nat → Painting → Prop) (Allowed : List String → Prop) (size : Nat) : Progress → Prop
  | .done s p => s.Over Allowed ∧ Holds size p
  | .next i s p => s.Over Allowed ∧ Holds i p

variable {again : Retokenize} {text : Array Char}

/-! ## Matches -/

theorem Painting.Law.flatMap (law : Law Holds Allowed) {α : Type} (template : α → Option String)
    (groups : List (Option String)) : ∀ {l : List α} {scopes : List String}, Allowed scopes →
      Allowed (scopes ++ l.flatMap fun a => Scope.ofTemplate (template a) groups)
  | [], scopes, h => by rwa [List.flatMap_nil, List.append_nil]
  | a :: l, scopes, h => by
    rw [List.flatMap_cons, ← List.append_assoc]
    exact law.flatMap template groups (law.named (template a) groups h)

theorem Segment.allowed_of_mem (law : Painting.Law Holds Allowed) {m : Match} {captures : List (Capture Nat)}
    {scopes : List String} (h : Allowed scopes) {s : Segment} (hs : s ∈ ofMatch text m captures scopes) :
    Allowed s.scopes := by
  obtain ⟨_, _, rfl⟩ := List.mem_map.mp hs
  exact law.flatMap _ _ h

namespace Painting

theorem keeps_addSegment (law : Law Holds Allowed) (ha : again.Keeps Holds Allowed) {p p' : Painting} {s : Segment}
    (hs : s.span.start ≤ s.span.stop) (hsize : s.span.stop ≤ text.size) (hscopes : Allowed s.scopes)
    (hp : Holds s.span.start p) (h : p.addSegment again text s = .ok p') : Holds s.span.stop p' := by
  unfold addSegment at h
  split at h
  · have hstop : (text.extract 0 s.span.stop).size = s.span.stop := by
      rw [Array.size_extract]
      omega
    have := ha _ _ _ _ _ _ (by rw [hstop]; exact hs) hscopes hp h
    rwa [hstop] at this
  · cases h
    exact law.paint hs hscopes hp

theorem keeps_addSegments (law : Law Holds Allowed) (ha : again.Keeps Holds Allowed) :
    ∀ {segments : List Segment} {i j : Nat} {p p' : Painting}, Segment.Linked i segments j → j ≤ text.size →
      (∀ s ∈ segments, Allowed s.scopes) → Holds i p → segments.foldlM (addSegment again text) p = .ok p' → Holds j p'
  | [], _, _, _, _, hl, _, _, hp, h => by
    cases hl
    cases h
    exact hp
  | s :: _, _, _, _, _, ⟨hi, hlt, hr⟩, hj, hscopes, hp, h => by
    subst hi
    rw [List.foldlM_cons, Results.bind_eq_ok] at h
    obtain ⟨q, hq, h⟩ := h
    obtain ⟨hs, hrest⟩ := List.forall_mem_cons.mp hscopes
    have hstop := hr.le
    exact keeps_addSegments law ha hr hj hrest
      (keeps_addSegment law ha (Nat.le_of_lt hlt) (Nat.le_trans hstop hj) hs hp hq) h

theorem keeps_addMatch (law : Law Holds Allowed) (ha : again.Keeps Holds Allowed) {p p' : Painting} {m : Match}
    {captures : List (Capture Nat)} {scopes : List String} (hm : m.span.start ≤ m.span.stop)
    (hsize : m.span.stop ≤ text.size) (hscopes : Allowed scopes) (hp : Holds m.span.start p)
    (h : p.addMatch again text m captures scopes = .ok p') : Holds m.span.stop p' := by
  unfold addMatch at h
  split at h
  · rename_i he
    cases h
    exact he ▸ hp
  · split at h
    · cases h
      exact law.paint hm hscopes hp
    · exact keeps_addSegments law ha (Segment.linked_ofMatch text hm captures scopes) hsize
        (fun s hs => Segment.allowed_of_mem law hscopes hs) hp h

end Painting

/-! ## Scans -/

namespace Highlighter

variable {h : Highlighter} {line : Nat}

theorem allowed_of_painted? (law : Painting.Law Holds Allowed) {start : Nat} {s : State} {m : Match} {c : Choice}
    {captures : List (Capture Nat)} {scopes : List String} (hs : s.Over Allowed)
    (hc : ∃ p, (c, p) ∈ s.choices h.grammar) (hp : s.painted? text start m c = some (captures, scopes)) :
    Allowed scopes := by
  cases c with
  | leave f below =>
    cases hp
    obtain ⟨p, hc⟩ := hc
    exact hs.named f (by simp [State.frames_of_leave_mem hc])
  | piece name captures =>
    cases hp
    exact law.named _ _ hs.scopes
  | enter id r =>
    unfold State.painted? at hp
    simp only at hp
    split at hp
    · cases hp
    · cases hp
      exact law.named _ _ hs.scopes

theorem keeps_settle (law : Painting.Law Holds Allowed) {start : Nat} {s : State} {m : Match} {p : Painting} {c : Choice}
    {r : Progress} (hsize : m.span.stop ≤ text.size) (hs : s.Over Allowed) (hc : ∃ p, (c, p) ∈ s.choices h.grammar)
    (hp : Holds m.span.stop p) (hr : h.settle line text start s m p c = .ok r) : r.Keeps Holds Allowed text.size := by
  cases c with
  | leave f below =>
    obtain ⟨_, hc⟩ := hc
    have hbelow : ({ s with frames := below } : State).Over Allowed :=
      hs.sublist fun g hg => by simp [State.frames_of_leave_mem hc, hg]
    simp only [settle, Except.ok.injEq] at hr
    subst hr
    split
    · exact ⟨hbelow, law.paint hsize hbelow.scopes hp⟩
    · exact ⟨hbelow, hp⟩
  | piece name captures =>
    simp only [settle, Except.ok.injEq] at hr
    subst hr
    split
    · exact ⟨hs, law.paint hsize hs.scopes hp⟩
    · exact ⟨hs, hp⟩
  | enter id r =>
    obtain ⟨closing, _, rfl⟩ := Results.map_eq_ok.mp hr
    have hnamed := law.named r.name (m.texts text) hs.scopes
    exact ⟨hs.push hs.scopes hnamed (law.named _ _ hnamed), hp⟩

theorem empty_of_painted?_eq_none {start : Nat} {s : State} {m : Match} {c : Choice}
    (hn : s.painted? text start m c = none) : m.span.stop = start := by
  cases c with
  | leave f below => cases hn
  | piece name captures => cases hn
  | enter id r =>
    unfold State.painted? at hn
    simp only at hn
    split at hn
    · rename_i he
      exact he.1
    · cases hn

theorem keeps_step (law : Painting.Law Holds Allowed) (ha : again.Keeps Holds Allowed) {start : Nat} {s : State}
    {p : Painting} {r : Progress} (hstart : start ≤ text.size) (hs : s.Over Allowed) (hp : Holds start p)
    (hr : h.step line again text start s p = .ok r) : r.Keeps Holds Allowed text.size := by
  cases hn : h.next text start s with
  | none =>
    rw [step_of_next_eq_none h line again text p hn] at hr
    cases hr
    exact ⟨hs, law.paint hstart hs.scopes hp⟩
  | some cm =>
    obtain ⟨c, m⟩ := cm
    obtain ⟨hc, h1, h2, h3⟩ := next_eq_some hn
    rw [step_of_next_eq_some h line again text p hn] at hr
    have hgap := law.paint h1 hs.scopes hp
    split at hr
    · -- nothing is painted of the match, which is empty
      rename_i hnone
      cases hr
      have hempty := empty_of_painted?_eq_none hnone
      have hstop : m.span.start = m.span.stop := by omega
      rw [hstop] at hgap ⊢
      exact ⟨hs, law.paint h3 hs.scopes hgap⟩
    · rename_i captures scopes hpainted
      obtain ⟨q, hq, hr⟩ := Results.bind_eq_ok.mp hr
      have hadd := Painting.keeps_addMatch law ha h2 h3 (allowed_of_painted? law hs hc hpainted) hgap hq
      exact keeps_settle law h3 hs hc hadd hr

theorem keeps_scan (law : Painting.Law Holds Allowed) (ha : again.Keeps Holds Allowed) {start : Nat} {s : State}
    {p : Painting} (hstart : start ≤ text.size) (hs : s.Over Allowed) (hp : Holds start p) {e : State × Painting}
    (he : h.scan line again text start s p = .ok e) : e.1.Over Allowed ∧ Holds text.size e.2 := by
  induction start, s, p using scan.induct h line again text with
  | case1 start s p err hstep =>
    rw [scan_of_error hstep] at he
    cases he
  | case2 start s p s' p' hstep =>
    rw [scan_of_done hstep] at he
    cases he
    exact keeps_step law ha hstart hs hp hstep
  | case3 start s p i s' p' hstep ih =>
    rw [scan_of_next hstep] at he
    have hi := keeps_step law ha hstart hs hp hstep
    exact ih (step_eq_next hstep).2.1 hi.1 hi.2 he

theorem keeps_scanWithin (law : Painting.Law Holds Allowed) (h : Highlighter) (line : Nat) :
    ∀ depth, (h.scanWithin line depth).Keeps Holds Allowed
  | 0 => fun _ _ _ _ _ _ _ _ _ he => by cases he
  | depth + 1 => fun text start rule scopes p p' hstart hscopes hp he => by
    obtain ⟨e, hscan, rfl⟩ := Results.map_eq_ok.mp he
    exact (keeps_scan law (keeps_scanWithin law h line depth) hstart (.start hscopes) hp hscan).2

/-! ## Lines -/

/-- What the check of a region and of those inside it comes to. -/
theorem checkConditions_cases {f : Frame} {frames : List Frame} {start : Nat} {p : Painting}
    {e : List Frame × Nat × Painting} (he : h.checkConditions again text start p (f :: frames) = .ok e) :
    (∃ closingLast e', f.region.lasting = .untilClosed closingLast ∧
      h.checkConditions again text start p frames = .ok e' ∧ e = (f :: e'.1, e'.2)) ∨
    (f.region.lasting = .whileHolds ∧ h.engine.matchAt f.closing text start start = none ∧ e = ([], start, p)) ∨
    ∃ m q e', f.region.lasting = .whileHolds ∧ h.engine.matchAt f.closing text start start = some m ∧
      p.addMatch again text m f.region.closingCaptures f.named = .ok q ∧
      h.checkConditions again text m.span.stop q frames = .ok e' ∧ e = (f :: e'.1, e'.2) := by
  rw [checkConditions] at he
  cases hl : f.region.lasting with
  | untilClosed closingLast =>
    rw [hl] at he
    obtain ⟨e', he', he⟩ := Results.bind_eq_ok.mp he
    cases he
    exact .inl ⟨closingLast, e', rfl, he', rfl⟩
  | whileHolds =>
    rw [hl] at he
    cases hm : h.engine.matchAt f.closing text start start with
    | none =>
      simp only [hm] at he
      cases he
      exact .inr (.inl ⟨rfl, rfl, rfl⟩)
    | some m =>
      simp only [hm] at he
      obtain ⟨q, hq, he⟩ := Results.bind_eq_ok.mp he
      obtain ⟨e', he', he⟩ := Results.bind_eq_ok.mp he
      cases he
      exact .inr (.inr ⟨m, q, e', rfl, rfl, hq, he', rfl⟩)

theorem prefix_of_checkConditions : ∀ {frames : List Frame} {start : Nat} {p : Painting} {e : List Frame × Nat × Painting},
    h.checkConditions again text start p frames = .ok e → e.1 <+: frames
  | [], _, _, _, he => by
    cases he
    exact List.prefix_rfl
  | f :: frames, start, p, e, he => by
    rcases checkConditions_cases he with ⟨_, e', _, he', rfl⟩ | ⟨_, _, rfl⟩ | ⟨_, _, e', _, _, _, he', rfl⟩
    · exact List.cons_prefix_cons.mpr ⟨rfl, prefix_of_checkConditions he'⟩
    · exact List.nil_prefix
    · exact List.cons_prefix_cons.mpr ⟨rfl, prefix_of_checkConditions he'⟩

theorem keeps_checkConditions (law : Painting.Law Holds Allowed) (ha : again.Keeps Holds Allowed) :
    ∀ {frames : List Frame} {start : Nat} {p : Painting} {e : List Frame × Nat × Painting}, start ≤ text.size →
      (∀ f ∈ frames, Allowed f.named) → Holds start p → h.checkConditions again text start p frames = .ok e →
      start ≤ e.2.1 ∧ e.2.1 ≤ text.size ∧ Holds e.2.1 e.2.2
  | [], start, _, _, hs, _, hp, he => by
    cases he
    exact ⟨Nat.le_refl _, hs, hp⟩
  | f :: frames, start, p, e, hs, hf, hp, he => by
    obtain ⟨hname, hrest⟩ := List.forall_mem_cons.mp hf
    rcases checkConditions_cases he with ⟨_, e', _, he', rfl⟩ | ⟨_, _, rfl⟩ | ⟨m, q, e', _, hm, hq, he', rfl⟩
    · exact keeps_checkConditions law ha (e := e') hs hrest hp he'
    · exact ⟨Nat.le_refl _, hs, hp⟩
    · obtain ⟨h1, h2, h3⟩ := h.engine.bounds hs hm
      have hadd := Painting.keeps_addMatch law ha (by omega) h3 hname (h1 ▸ hp) hq
      have ih := keeps_checkConditions law ha h3 hrest hadd he'
      exact ⟨Nat.le_trans (by omega : start ≤ m.span.stop) ih.1, ih.2⟩

theorem keeps_paintLine (law : Painting.Law Holds Allowed) {number : Nat} {l : List Char} {s : State}
    {e : State × Painting} (hs : s.Over Allowed) (hp : Holds 0 (.blank l.length))
    (he : h.paintLine number l s = .ok e) : e.1.Over Allowed ∧ Holds (l.length + 1) e.2 := by
  unfold paintLine at he
  obtain ⟨⟨stay, start, q⟩, hq, he⟩ := Results.bind_eq_ok.mp he
  have hstart := hs.atLineStart
  have ha := keeps_scanWithin law h number (captureDepth h.grammar (l ++ [Text.lineEnd]).toArray.size)
  have hc := keeps_checkConditions law ha (Nat.zero_le _)
    (fun f hf => hstart.named f (List.mem_reverse.mp hf)) hp hq
  have hstay : ({ s.atLineStart with frames := stay.reverse } : State).Over Allowed :=
    hstart.sublist fun f hf => List.mem_reverse.mp ((prefix_of_checkConditions hq).subset (List.mem_reverse.mp hf))
  have hscan := keeps_scan law ha hc.2.1 hstay hc.2.2 he
  have hsize : (l ++ [Text.lineEnd]).toArray.size = l.length + 1 := by simp
  rwa [hsize] at hscan

end Highlighter

end Highlight
