import Highlight.Proofs.Segments
import Highlight.Proofs.Scopeless

/-!
# Passages

A scan has passages of its text tokenized again. Which ones these are, and in which
order, depends neither on the scopes nor on what becomes of the passages, as long as
none of them fails: the first that fails ends the scan with its error. So a scan does
what it would do if no passage were tokenized again, after a list of passages.
-/

namespace Highlight

/-- The end of a text, from a position on, that a rule is applied to. -/
structure Passage where
  text : Array Char
  start : Nat
  rule : Nat

def Passage.Within (text : Array Char) (start : Nat) (T : Passage) : Prop :=
  T.text = text.extract 0 T.text.size ∧ T.text.size ≤ text.size ∧ start ≤ T.start ∧ T.start < T.text.size

theorem Passage.Within.mono {text : Array Char} {i j : Nat} {T : Passage} (hT : T.Within text i) (hji : j ≤ i) :
    T.Within text j :=
  ⟨hT.1, hT.2.1, Nat.le_trans hji hT.2.2.1, hT.2.2.2⟩

def Segment.passage? (text : Array Char) (s : Segment) : Option Passage :=
  s.again.map fun rule => ⟨text.extract 0 s.span.stop, s.span.start, rule⟩

def Match.passages (m : Match) (text : Array Char) (captures : List (Capture Nat)) : List Passage :=
  if m.span.start = m.span.stop ∨ captures.isEmpty then []
  else (Segment.ofMatch text m captures []).filterMap (Segment.passage? text)

def Retokenize.mute : Retokenize :=
  fun _ _ _ p => .ok p

/-- Tokenizing again fails just as told, whatever the scopes. -/
def Retokenize.Answers (again : Retokenize) (v : Passage → Option TokenizeError) : Prop :=
  ∀ (text : Array Char) (start rule : Nat) (scopes : List String) (p : Painting),
    Results.fault? (again text start (.start rule scopes) p) = v ⟨text, start, rule⟩

variable {again : Retokenize} {v : Passage → Option TokenizeError}

/-! ## Matches -/

namespace Painting

variable (text : Array Char)

theorem fault?_addSegment (ha : again.Answers v) (p : Painting) (s : Segment) :
    Results.fault? (p.addSegment again text s) = (s.passage? text).bind v := by
  unfold addSegment Segment.passage?
  cases s.again with
  | none => rfl
  | some rule => exact ha _ _ _ _ _

theorem fault?_addSegments (ha : again.Answers v) : ∀ (segments : List Segment) (p : Painting),
    Results.fault? (segments.foldlM (addSegment again text) p) =
      (segments.filterMap (Segment.passage? text)).findSome? v
  | [], _ => rfl
  | s :: segments, p => by
    have hs := fault?_addSegment text ha p s
    rw [List.foldlM_cons, List.filterMap_cons]
    cases hp : p.addSegment again text s with
    | error e =>
      rw [hp] at hs
      cases hq : s.passage? text with
      | none =>
        rw [hq] at hs
        cases hs
      | some T =>
        rw [hq] at hs
        simp only [Option.bind_some] at hs
        simp only [List.findSome?_cons, ← hs]
        rfl
    | ok q =>
      have ih := fault?_addSegments ha segments q
      rw [hp] at hs
      cases hq : s.passage? text with
      | none => exact ih
      | some T =>
        rw [hq] at hs
        simp only [Option.bind_some] at hs
        simp only [List.findSome?_cons, ← hs]
        exact ih

end Painting

theorem Segment.passages_ofMatch (text : Array Char) (m : Match) (captures : List (Capture Nat)) (scopes : List String) :
    (ofMatch text m captures scopes).filterMap (passage? text) =
      (ofMatch text m captures []).filterMap (passage? text) := by
  unfold ofMatch
  rw [List.filterMap_map, List.filterMap_map]
  rfl

theorem Painting.fault?_addMatch (text : Array Char) (ha : again.Answers v) (p : Painting) (m : Match)
    (captures : List (Capture Nat)) (scopes : List String) :
    Results.fault? (p.addMatch again text m captures scopes) = (m.passages text captures).findSome? v := by
  unfold addMatch Match.passages
  by_cases hempty : m.span.start = m.span.stop
  · rw [if_pos hempty, if_pos (.inl hempty)]
    rfl
  · rw [if_neg hempty]
    by_cases hnone : captures.isEmpty
    · rw [if_pos hnone, if_pos (.inr hnone)]
      rfl
    · rw [if_neg hnone, if_neg (by simp [hempty, hnone]), fault?_addSegments text ha,
        Segment.passages_ofMatch text m captures scopes]

theorem Painting.addMatch_mute (text : Array Char) (p : Painting) (m : Match) (captures : List (Capture Nat))
    (scopes : List String) :
    ∃ q, p.addMatch .mute text m captures scopes = .ok q := by
  have hm : Retokenize.mute.Answers fun _ => none := fun _ _ _ _ _ => rfl
  rw [← Results.fault?_eq_none, fault?_addMatch text hm]
  exact List.findSome?_eq_none_iff.mpr fun _ _ => rfl

/-! ## Scans -/

namespace Highlighter

variable (h : Highlighter) (line : Nat) {text : Array Char}

def nextPassages (text : Array Char) (start : Nat) (s : State) : List Passage :=
  match h.next text start s with
  | none => []
  | some (c, m) =>
    match s.painted? text start m c with
    | none => []
    | some (captures, _) => m.passages text captures

def passages (text : Array Char) (start : Nat) (s : State) : List Passage :=
  h.nextPassages text start s ++
    match _h : h.step line .mute text start s (.blank 0) with
    | .ok (.next i s _) => passages text i s
    | _ => []
termination_by (text.size - start, h.freshRules start s, s.frames.length)
decreasing_by exact step_decreases ‹_›

variable {h line}

variable (h line) in
theorem passages_eq_append (text : Array Char) (start : Nat) (s : State) :
    ∃ rest, h.passages line text start s = h.nextPassages text start s ++ rest := by
  rw [passages]
  exact ⟨_, rfl⟩

theorem passages_of_next {start i : Nat} {s s' : State} {p : Painting}
    (hs : h.step line .mute text start s (.blank 0) = .ok (.next i s' p)) :
    h.passages line text start s = h.nextPassages text start s ++ h.passages line text i s' := by
  rw [passages, hs]

theorem passages_of_done {start : Nat} {s s' : State} {p : Painting}
    (hs : h.step line .mute text start s (.blank 0) = .ok (.done s' p)) :
    h.passages line text start s = h.nextPassages text start s := by
  rw [passages, hs]
  exact List.append_nil _

theorem passages_of_error {start : Nat} {s : State} {e : TokenizeError}
    (hs : h.step line .mute text start s (.blank 0) = .error e) :
    h.passages line text start s = h.nextPassages text start s := by
  rw [passages, hs]
  exact List.append_nil _

variable (h line text) in
theorem step_bare (ha : again.Answers v) (start : Nat) {s t : State} (hst : s.bare = t.bare) (p q : Painting) :
    (h.step line again text start s p).map Progress.bare =
      Results.after ((h.nextPassages text start t).findSome? v)
        ((h.step line .mute text start t q).map Progress.bare) := by
  have hnext := (next_bare h text start s).symm.trans ((congrArg _ hst).trans (next_bare h text start t))
  cases hn : h.next text start s with
  | none =>
    rw [hn, Option.map_none, eq_comm, Option.map_eq_none_iff] at hnext
    rw [step_of_next_eq_none h line again text p hn, step_of_next_eq_none h line .mute text q hnext]
    unfold nextPassages
    rw [hnext]
    simp only [Except.map, Progress.bare, hst]
    rfl
  | some cm =>
    obtain ⟨c, m⟩ := cm
    rw [hn, Option.map_some, eq_comm, Option.map_eq_some_iff] at hnext
    obtain ⟨⟨d, m'⟩, hd, heq⟩ := hnext
    obtain ⟨hcd, rfl⟩ := Prod.mk.inj heq
    have hpainted : (s.painted? text start m' c).map (·.1) = (t.painted? text start m' d).map (·.1) := by
      rw [← State.painted?_bare s, ← State.painted?_bare t, hst]
      exact congrArg (fun c => Option.map _ (t.bare.painted? text start m' c)) hcd.symm
    have hsettle (p q : Painting) : (h.settle line text start s m' p c).map Progress.bare =
        (h.settle line text start t m' q d).map Progress.bare := by
      rw [← settle_bare h line text start s m' p p, ← settle_bare h line text start t m' p q, hst]
      exact congrArg (fun c => (h.settle line text start t.bare m' p c).map Progress.bare) hcd.symm
    rw [step_of_next_eq_some h line again text p hn, step_of_next_eq_some h line .mute text q hd]
    unfold nextPassages
    rw [hd]
    cases ht : t.painted? text start m' d with
    | none =>
      rw [ht, Option.map_none, Option.map_eq_none_iff] at hpainted
      simp only [hpainted, ht, Except.map, Progress.bare, hst]
      rfl
    | some painted =>
      obtain ⟨captures, scopes⟩ := painted
      rw [ht, Option.map_some, Option.map_eq_some_iff] at hpainted
      obtain ⟨⟨captures', scopes'⟩, hs, rfl⟩ := hpainted
      simp only [hs, ht]
      have hadd := Painting.fault?_addMatch text ha (p.paint start m'.span.start s.scopes) m' captures' scopes'
      obtain ⟨q', hq'⟩ := Painting.addMatch_mute text (q.paint start m'.span.start t.scopes) m' captures' scopes
      rw [← hadd, hq']
      cases (p.paint start m'.span.start s.scopes).addMatch again text m' captures' scopes' with
      | error e => rfl
      | ok p' => exact hsettle p' q'

theorem step_of_map_done {start : Nat} {s t : State} {p q : Painting}
    (hs : (h.step line again text start s p).map Progress.bare = .ok (.done t q)) :
    ∃ s' p', h.step line again text start s p = .ok (.done s' p') ∧ s'.bare = t := by
  obtain ⟨r, hr, hb⟩ := Results.map_eq_ok.mp hs
  obtain ⟨s', p', rfl, hst⟩ := Progress.of_bare_eq_done hb
  exact ⟨s', p', hr, hst⟩

theorem step_of_map_next {start i : Nat} {s t : State} {p q : Painting}
    (hs : (h.step line again text start s p).map Progress.bare = .ok (.next i t q)) :
    ∃ s' p', h.step line again text start s p = .ok (.next i s' p') ∧ s'.bare = t := by
  obtain ⟨r, hr, hb⟩ := Results.map_eq_ok.mp hs
  obtain ⟨s', p', rfl, hst⟩ := Progress.of_bare_eq_next hb
  exact ⟨s', p', hr, hst⟩

theorem answers_mute : Retokenize.mute.Answers fun _ => none :=
  fun _ _ _ _ _ => rfl

variable (h line text) in
theorem step_mute_bare (start : Nat) {s t : State} (hst : s.bare = t.bare) (p q : Painting) :
    (h.step line .mute text start s p).map Progress.bare = (h.step line .mute text start t q).map Progress.bare := by
  rw [step_bare h line text answers_mute start hst p q, List.findSome?_eq_none_iff.mpr fun _ _ => rfl]
  rfl

variable (h line text) in
/-- A scan does what it would do if nothing were tokenized again, unless one of its
passages fails. -/
theorem scan_bare (ha : again.Answers v) (start : Nat) {s t u : State} (hst : s.bare = t.bare)
    (hut : u.bare = t.bare) (p q : Painting) :
    (h.scan line again text start s p).map (·.1.bare) =
      Results.after ((h.passages line text start t).findSome? v)
        ((h.scan line .mute text start u q).map (·.1.bare)) := by
  induction start, t using passages.induct h line text generalizing s u p q with
  | case1 start t ih =>
    have hs := step_bare h line text ha start hst p (.blank 0)
    have hu := step_mute_bare h line text start hut q (.blank 0)
    cases hnext : (h.nextPassages text start t).findSome? v with
    | some e =>
      -- one of the passages of this match ends the scan
      rw [hnext] at hs
      rw [scan_of_error (Results.map_eq_error.mp hs)]
      have hfirst : (h.passages line text start t).findSome? v = some e := by
        rw [passages, List.findSome?_append, hnext]
        rfl
      rw [hfirst]
      rfl
    | none =>
      rw [hnext] at hs
      cases ht : h.step line .mute text start t (.blank 0) with
      | error e =>
        rw [passages_of_error ht, hnext]
        rw [ht] at hs hu
        rw [scan_of_error (Results.map_eq_error.mp hs), scan_of_error (Results.map_eq_error.mp hu)]
        rfl
      | ok r =>
        cases r with
        | done t' p₀ =>
          rw [passages_of_done ht, hnext]
          rw [ht] at hs hu
          obtain ⟨s', p', hs, hst'⟩ := step_of_map_done hs
          obtain ⟨u', q', hu, hut'⟩ := step_of_map_done hu
          rw [scan_of_done hs, scan_of_done hu]
          simp only [Except.map, hst', hut']
          rfl
        | next i t' p₀ =>
          rw [passages_of_next ht, List.findSome?_append, hnext, Option.none_or]
          rw [ht] at hs hu
          obtain ⟨s', p', hs, hst'⟩ := step_of_map_next hs
          obtain ⟨u', q', hu, hut'⟩ := step_of_map_next hu
          rw [scan_of_next hs, scan_of_next hu]
          exact ih i t' p₀ ht hst' hut' p' q'

/-! ## Lines -/

variable (h line)

def conditionPassages (text : Array Char) : (start : Nat) → List Frame → List Passage
  | _, [] => []
  | start, f :: inner =>
    match f.region.lasting with
    | .untilClosed _ => conditionPassages text start inner
    | .whileHolds =>
      match h.engine.matchAt f.closing text start start with
      | none => []
      | some m => m.passages text f.region.closingCaptures ++ conditionPassages text m.span.stop inner

def linePassages (l : List Char) (s : State) : List Passage :=
  let text := (l ++ [Text.lineEnd]).toArray
  let s := s.atLineStart
  h.conditionPassages text 0 s.frames.reverse ++
    match h.checkConditions .mute text 0 (.blank l.length) s.frames.reverse with
    | .ok (stay, start, _) => h.passages line text start { s with frames := stay.reverse }
    | .error _ => []

variable {h line}

theorem map_stay (f : Frame) (x : Except TokenizeError (List Frame × Nat × Painting)) :
    (x >>= fun e => .ok (f :: e.1, e.2.1, e.2.2)).map (fun e => (e.1, e.2.1)) =
      (x.map fun e => (e.1, e.2.1)).map fun e => (f :: e.1, e.2) := by
  cases x with
  | error e => rfl
  | ok e => rfl

variable (h text) in
theorem checkConditions_bare (ha : again.Answers v) : ∀ (frames : List Frame) (start : Nat) (p q : Painting),
    (h.checkConditions again text start p frames).map (fun e => (e.1, e.2.1)) =
      Results.after ((h.conditionPassages text start frames).findSome? v)
        ((h.checkConditions .mute text start q frames).map fun e => (e.1, e.2.1))
  | [], _, _, _ => rfl
  | f :: inner, start, p, q => by
    rw [checkConditions, checkConditions, conditionPassages]
    cases f.region.lasting with
    | untilClosed closingLast =>
      refine (map_stay f _).trans ?_
      rw [checkConditions_bare ha inner start p q, Results.map_after]
      exact congrArg _ (map_stay f _).symm
    | whileHolds =>
      simp only
      cases h.engine.matchAt f.closing text start start with
      | none => rfl
      | some m =>
        have hadd := Painting.fault?_addMatch text ha p m f.region.closingCaptures f.named
        obtain ⟨q', hq'⟩ := Painting.addMatch_mute text q m f.region.closingCaptures f.named
        simp only
        rw [List.findSome?_append, ← hadd, hq']
        cases p.addMatch again text m f.region.closingCaptures f.named with
        | error e => rfl
        | ok p' =>
          refine (map_stay f _).trans ?_
          rw [checkConditions_bare ha inner m.span.stop p' q', Results.map_after]
          exact congrArg _ (map_stay f _).symm

/-! ## Where passages lie -/

theorem within_of_mem_match {m : Match} {captures : List (Capture Nat)} {T : Passage}
    (hm : m.span.start ≤ m.span.stop) (hsize : m.span.stop ≤ text.size) (hT : T ∈ m.passages text captures) :
    T.Within text m.span.start := by
  unfold Match.passages at hT
  split at hT
  · cases hT
  · obtain ⟨s, hs, hT⟩ := List.mem_filterMap.mp hT
    obtain ⟨rule, _, rfl⟩ := Option.map_eq_some_iff.mp hT
    obtain ⟨h1, h2, h3⟩ := (Segment.linked_ofMatch text hm captures []).inside_of_mem hs
    have hstop : (text.extract 0 s.span.stop).size = s.span.stop := by
      rw [Array.size_extract]
      omega
    refine ⟨?_, ?_, h1, ?_⟩
    · rw [hstop]
    · rw [hstop]
      exact Nat.le_trans h3 hsize
    · rw [hstop]
      exact h2

theorem within_of_mem_nextPassages {start : Nat} {s : State} {T : Passage}
    (hT : T ∈ h.nextPassages text start s) : T.Within text start := by
  unfold nextPassages at hT
  split at hT
  · cases hT
  · rename_i c m hn
    obtain ⟨_, h1, h2, h3⟩ := next_eq_some hn
    split at hT
    · cases hT
    · exact (within_of_mem_match h2 h3 hT).mono h1

theorem within_of_mem_passages {start : Nat} {s : State} {T : Passage}
    (hT : T ∈ h.passages line text start s) : T.Within text start := by
  induction start, s using passages.induct h line text with
  | case1 start s ih =>
    rw [passages, List.mem_append] at hT
    rcases hT with hT | hT
    · exact within_of_mem_nextPassages hT
    · split at hT
      · rename_i i s' p hs
        exact (ih i s' p hs hT).mono (step_eq_next hs).1
      · cases hT

theorem within_of_mem_conditionPassages : ∀ {frames : List Frame} {start : Nat} {T : Passage}, start ≤ text.size →
    T ∈ h.conditionPassages text start frames → T.Within text start
  | [], _, _, _, hT => by cases hT
  | f :: inner, start, T, hs, hT => by
    rw [conditionPassages] at hT
    split at hT
    · exact within_of_mem_conditionPassages hs hT
    · split at hT
      · cases hT
      · rename_i m hm
        obtain ⟨h1, h2, h3⟩ := h.engine.bounds hs hm
        rcases List.mem_append.mp hT with hT | hT
        · exact h1 ▸ within_of_mem_match (by omega) h3 hT
        · exact (within_of_mem_conditionPassages h3 hT).mono h2

theorem within_of_mem_linePassages {l : List Char} {s : State} {T : Passage}
    (hT : T ∈ h.linePassages line l s) : T.Within (l ++ [Text.lineEnd]).toArray 0 := by
  unfold linePassages at hT
  rcases List.mem_append.mp hT with hT | hT
  · exact within_of_mem_conditionPassages (Nat.zero_le _) hT
  · split at hT
    · exact (within_of_mem_passages hT).mono (Nat.zero_le _)
    · cases hT

theorem passages_of_size_le {start rule : Nat} (hr : h.grammar.rules.size ≤ rule) :
    h.passages line text start (.start rule []) = [] := by
  have hsize : h.grammar.candidates.size = h.grammar.rules.size := by
    rw [h.grammar.candidates_eq, Array.size_map]
  have hchoices : (State.start rule []).choices h.grammar = [] := by
    show (State.start rule []).starts h.grammar = []
    have hnone : h.grammar.candidatesIn rule = [] := by
      unfold Grammar.candidatesIn
      rw [Array.getElem?_eq_none (by omega)]
      rfl
    show (h.grammar.candidatesIn rule).filterMap _ = []
    rw [hnone]
    rfl
  have hnext : h.next text start (.start rule []) = none := by
    unfold next
    rw [hchoices]
    exact firstFrom_eq_none.mpr fun _ _ _ => rfl
  rw [passages_of_done (step_of_next_eq_none h line .mute text _ hnext)]
  unfold nextPassages
  rw [hnext]

/-! ## Faults of their own -/

/-- Where nothing is tokenized again, nothing goes on without end. -/
theorem step_mute_ne_endless {start : Nat} {s : State} {p : Painting} {n : Nat} :
    h.step line .mute text start s p ≠ .error (.endless n) := by
  intro hs
  cases hn : h.next text start s with
  | none =>
    rw [step_of_next_eq_none h line .mute text p hn] at hs
    cases hs
  | some cm =>
    obtain ⟨c, m⟩ := cm
    rw [step_of_next_eq_some h line .mute text p hn] at hs
    split at hs
    · cases hs
    · rename_i captures scopes hpainted
      obtain ⟨q, hq⟩ := Painting.addMatch_mute text (p.paint start m.span.start s.scopes) m captures scopes
      rw [hq] at hs
      cases c with
      | leave f below => cases hs
      | piece name captures => cases hs
      | enter id r =>
        obtain hs := Results.map_eq_error.mp hs
        cases hc : r.closing with
        | fixed closing =>
          rw [hc] at hs
          cases hs
        | backReferenced source =>
          rw [hc] at hs
          obtain ⟨d, _, hd⟩ := Results.mapError_eq_error.mp hs
          cases hd

theorem scan_mute_ne_endless {start : Nat} {s : State} {p : Painting} {n : Nat} :
    h.scan line .mute text start s p ≠ .error (.endless n) := by
  induction start, s, p using scan.induct h line .mute text with
  | case1 start s p e hs =>
    rw [scan_of_error hs]
    intro he
    cases he
    exact step_mute_ne_endless hs
  | case2 start s p s' p' hs =>
    rw [scan_of_done hs]
    intro he
    cases he
  | case3 start s p i s' p' hs ih =>
    rw [scan_of_next hs]
    exact ih

variable (h text) in
theorem checkConditions_mute : ∀ (frames : List Frame) (start : Nat) (p : Painting),
    ∃ e, h.checkConditions .mute text start p frames = .ok e
  | [], start, p => ⟨([], start, p), rfl⟩
  | f :: inner, start, p => by
    rw [checkConditions]
    cases f.region.lasting with
    | untilClosed closingLast =>
      obtain ⟨e, he⟩ := checkConditions_mute inner start p
      simp only [he]
      exact ⟨_, rfl⟩
    | whileHolds =>
      simp only
      cases h.engine.matchAt f.closing text start start with
      | none => exact ⟨_, rfl⟩
      | some m =>
        obtain ⟨q, hq⟩ := Painting.addMatch_mute text p m f.region.closingCaptures f.named
        obtain ⟨e, he⟩ := checkConditions_mute inner m.span.stop q
        simp only [hq]
        refine ⟨(f :: e.1, e.2.1, e.2.2), ?_⟩
        show (h.checkConditions .mute text m.span.stop q inner >>= _) = _
        rw [he]
        rfl

variable (h line) in
def paintLineWithin (depth : Nat) (l : List Char) (s : State) : Except TokenizeError (State × Painting) := do
  let text := (l ++ [Text.lineEnd]).toArray
  let again := h.scanWithin line depth
  let (stay, start, p) ← h.checkConditions again text 0 (.blank l.length) s.atLineStart.frames.reverse
  h.scan line again text start { s.atLineStart with frames := stay.reverse } p

theorem paintLine_eq (l : List Char) (s : State) :
    h.paintLine line l s = h.paintLineWithin line (captureDepth h.grammar (l ++ [Text.lineEnd]).toArray.size) l s := rfl

/-- A line fails as the first of its passages that fails. Only where none does, it may
fail on its own. -/
theorem fault?_paintLineWithin {depth : Nat} (l : List Char) (s : State) (ha : (h.scanWithin line depth).Answers v) :
    ∃ own, (∀ n, own ≠ some (.endless n)) ∧
      Results.fault? (h.paintLineWithin line depth l s) = ((h.linePassages line l s).findSome? v).or own := by
  have hc := checkConditions_bare h (l ++ [Text.lineEnd]).toArray ha
    s.atLineStart.frames.reverse 0 (.blank l.length) (.blank l.length)
  obtain ⟨⟨stay, start, q⟩, hmute⟩ := checkConditions_mute h (l ++ [Text.lineEnd]).toArray
    s.atLineStart.frames.reverse 0 (.blank l.length)
  rw [hmute] at hc
  unfold paintLineWithin linePassages
  simp only [hmute, List.findSome?_append]
  cases hp : (h.conditionPassages (l ++ [Text.lineEnd]).toArray 0 s.atLineStart.frames.reverse).findSome? v with
  | some e =>
    rw [hp] at hc
    rw [Results.map_eq_error.mp hc]
    exact ⟨none, fun _ he => (by cases he), rfl⟩
  | none =>
    rw [hp] at hc
    obtain ⟨⟨stay', start', p⟩, hc, he⟩ := Results.map_eq_ok.mp hc
    cases he
    rw [hc]
    refine ⟨Results.fault? (h.scan line .mute (l ++ [Text.lineEnd]).toArray start
      { s.atLineStart with frames := stay.reverse } (.blank 0)), ?_, ?_⟩
    · intro n hn
      exact scan_mute_ne_endless (Results.fault?_eq_some.mp hn)
    · have := congrArg Results.fault? (scan_bare h line (l ++ [Text.lineEnd]).toArray ha start
        (s := { s.atLineStart with frames := stay.reverse }) rfl rfl p (.blank 0))
      rw [Results.fault?_map, Results.fault?_after, Results.fault?_map] at this
      exact this

end Highlighter

end Highlight
