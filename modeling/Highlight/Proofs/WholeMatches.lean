import Highlight.Proofs.Delimiters
import Mathlib.Data.List.Sort

/-!
# Matches without groups

A match of a literal text has no groups but the whole of it. So of the captures only those of
the whole count, and where these have no patterns the match is painted in one piece.
-/

namespace Highlight

def Capture.ofWhole (captures : List (Capture Nat)) (groups : List (Option String)) : List String :=
  (captures.filter (·.group = 0)).flatMap fun c => Scope.ofTemplate c.name groups

namespace Match

def whole (s : Span) : Match :=
  ⟨s, []⟩

variable {s : Span}

theorem span?_whole (h : s.start < s.stop) (group : Nat) :
    Active.span? (whole s) group = if group = 0 then some s else none := by
  cases group with
  | zero =>
    have hclamp : s.clampTo s = s := by
      unfold Span.clampTo
      simp only [Nat.min_eq_right (Nat.le_of_lt h), Nat.max_self, Nat.min_self, Nat.max_eq_right (Nat.le_of_lt h)]
    show (if (s.clampTo s).start < (s.clampTo s).stop then some (s.clampTo s) else none) = _
    rw [hclamp, if_pos h]
    rfl
  | succ group => rfl

theorem collect_whole (h : s.start < s.stop) : ∀ {captures : List (Capture Nat)} {found : List Active},
    (∀ c ∈ captures, c.patterns = none) → (∀ a ∈ found, a.capture.patterns = none) →
      Active.collect (whole s) found captures = found ++ (captures.filter (·.group = 0)).map fun c => ⟨s, c⟩
  | [], found, _, _ => by
    rw [Active.collect]
    exact (List.append_nil _).symm
  | c :: captures, found, hcaptures, hfound => by
    obtain ⟨hc, hrest⟩ := List.forall_mem_cons.mp hcaptures
    rw [Active.collect, span?_whole h]
    by_cases hgroup : c.group = 0
    · have hshadows : Active.shadows found s = false := by
        rw [Active.shadows, List.any_eq_false]
        intro a ha
        simp [hfound a ha]
      simp only [if_pos hgroup, hshadows]
      have hfound' : ∀ a ∈ found ++ [⟨s, c⟩], a.capture.patterns = none := by
        rw [List.forall_mem_append]
        exact ⟨hfound, List.forall_mem_singleton.mpr hc⟩
      rw [if_neg Bool.false_ne_true, collect_whole h hrest hfound', List.filter_cons_of_pos (by simpa using hgroup), List.map_cons,
        List.append_assoc]
      rfl
    · simp only [if_neg hgroup]
      rw [collect_whole h hrest hfound, List.filter_cons_of_neg (by simpa using hgroup)]

theorem bounds_whole (h : s.start < s.stop) {actives : List Active} (ha : ∀ a ∈ actives, a.span = s) :
    Segment.bounds s actives = [s.start, s.stop] := by
  refine (Segment.pairwise_bounds s actives).eq_of_mem_iff ?_ fun i => ?_
  · exact List.pairwise_pair.mpr h
  · rw [Segment.mem_bounds, List.mem_cons, List.mem_singleton]
    constructor
    · rintro (hi | hi | ⟨a, hmem, hi⟩)
      · exact .inl hi
      · exact .inr hi
      · exact ha a hmem ▸ hi
    · rintro (hi | hi)
      · exact .inl hi
      · exact .inr (.inl hi)

theorem segments_whole (h : s.start < s.stop) (text : Array Char) {captures : List (Capture Nat)}
    (hcaptures : ∀ c ∈ captures, c.patterns = none) (scopes : List String) :
    Segment.ofMatch text (whole s) captures scopes =
      [⟨s, scopes ++ Capture.ofWhole captures ((whole s).texts text), none⟩] := by
  have hactives : Active.ofMatch (whole s) captures = (captures.filter (·.group = 0)).map fun c => ⟨s, c⟩ :=
    collect_whole h hcaptures (List.forall_mem_nil _)
  have hspan : ∀ a ∈ Active.ofMatch (whole s) captures, a.span = s := by
    rw [hactives]
    intro a ha
    obtain ⟨c, _, rfl⟩ := List.mem_map.mp ha
    rfl
  have haround : (Active.ofMatch (whole s) captures).filter (fun a => a.span.contains s) = Active.ofMatch (whole s) captures :=
    List.filter_eq_self.mpr fun a ha => by simp [hspan a ha, Span.contains]
  have hagain : (Active.ofMatch (whole s) captures).filterMap (fun a => a.capture.patterns) = [] := by
    rw [List.filterMap_eq_nil_iff, hactives]
    intro a ha
    obtain ⟨c, hc, rfl⟩ := List.mem_map.mp ha
    exact hcaptures c (List.mem_filter.mp hc).1
  have hbounds : Segment.bounds (whole s).span (Active.ofMatch (whole s) captures) = [s.start, s.stop] := bounds_whole h hspan
  unfold Segment.ofMatch
  simp only [hbounds, List.tail_cons, List.zip_cons_cons, List.zip_nil_right, List.map_cons, List.map_nil]
  unfold Segment.between
  simp only [haround, hagain]
  rw [hactives, List.flatMap_map]
  rfl

theorem addMatch_whole (h : s.start < s.stop) (again : Retokenize) (text : Array Char) {captures : List (Capture Nat)}
    (hcaptures : ∀ c ∈ captures, c.patterns = none) (scopes : List String) (p : Painting) :
    p.addMatch again text (whole s) captures scopes =
      .ok (p.paint s.start s.stop (scopes ++ Capture.ofWhole captures ((whole s).texts text))) := by
  have hne : ¬(whole s).span.start = (whole s).span.stop := Nat.ne_of_lt h
  unfold Painting.addMatch
  rw [if_neg hne]
  cases captures with
  | nil =>
    have hnone : Capture.ofWhole [] ((whole s).texts text) = [] := rfl
    rw [hnone, List.append_nil]
    rfl
  | cons c captures =>
    rw [if_neg (by simp), segments_whole h text hcaptures]
    rfl

theorem texts_whole {t : String} {text : Array Char} {x : Nat} (hx : Text.StandsAt t text x) (ht : t ≠ "") :
    (whole (Text.spanAt t x)).texts text = [some t] := by
  have hsize := hx.le_size ht
  have htext : (text.extract x (x + t.length)).toList = t.toList := by
    rw [Array.toList_extract, List.extract_eq_take_drop, Nat.add_sub_cancel_left, ← String.length_toList]
    exact (List.prefix_iff_eq_take.mp hx).symm
  show [if x ≤ x + t.length ∧ x + t.length ≤ text.size then some (String.ofList (text.extract x (x + t.length)).toList) else none] = _
  rw [if_pos ⟨Nat.le_add_right _ _, hsize⟩, htext, String.ofList_toList]

end Match

namespace Highlighter

-- a delimiter is painted with the scopes of its region, on both sides
variable {h : Highlighter} (number : Nat) (again : Retokenize) {text : Array Char} {start : Nat} {s : State} (p : Painting)
  {sp : Span}

theorem step_of_leave_whole (hsp : sp.start < sp.stop) {f : Frame} {below : List Frame}
    (hn : h.next text start s = some (.leave f below, .whole sp)) (hcaptures : ∀ c ∈ f.region.closingCaptures, c.patterns = none) :
    h.step number again text start s p = .ok (.next sp.stop { s with frames := below }
      ((p.paint start sp.start s.scopes).paint sp.start sp.stop
        (f.named ++ Capture.ofWhole f.region.closingCaptures ((Match.whole sp).texts text)))) := by
  have hstart : start ≤ sp.start := (next_eq_some hn).2.1
  have hon : ¬((Match.whole sp).span.stop ≤ start ∧ f.enteredAt = some start) := fun h => by
    have : sp.stop ≤ start := h.1
    omega
  have hpaint := Match.addMatch_whole hsp again text hcaptures f.named (p.paint start sp.start s.scopes)
  rw [step_of_next_eq_some h number again text p hn]
  refine (congrArg (· >>= _) hpaint).trans ?_
  exact congrArg Except.ok (if_neg hon)

theorem step_of_enter_whole (hsp : sp.start < sp.stop) {id : Nat} {r : Region Nat Pattern} {closing : Pattern}
    (hn : h.next text start s = some (.enter id r, .whole sp)) (hcaptures : ∀ c ∈ r.openingCaptures, c.patterns = none)
    (hclosing : r.closing = .fixed closing) :
    h.step number again text start s p = .ok (.next sp.stop (s.push (s.opened text start (.whole sp) id r closing))
      ((p.paint start sp.start s.scopes).paint sp.start sp.stop
        (s.scopes ++ Scope.ofTemplate r.name ((Match.whole sp).texts text) ++
          Capture.ofWhole r.openingCaptures ((Match.whole sp).texts text)))) := by
  have hstart : start ≤ sp.start := (next_eq_some hn).2.1
  have hon : ¬((Match.whole sp).span.stop = start ∧ id ∈ s.openedAt start) := fun h => by
    have : sp.stop = start := h.1
    omega
  have hpainted : s.painted? text start (.whole sp) (.enter id r) =
      some (r.openingCaptures, s.scopes ++ Scope.ofTemplate r.name ((Match.whole sp).texts text)) := if_neg hon
  have hpaint := Match.addMatch_whole hsp again text hcaptures (s.scopes ++ Scope.ofTemplate r.name ((Match.whole sp).texts text))
    (p.paint start sp.start s.scopes)
  rw [step_of_next_eq_some h number again text p hn, hpainted]
  refine (congrArg (· >>= _) hpaint).trans ?_
  show (r.closing.resolve h.engine number _).map _ = _
  rw [hclosing]
  rfl

end Highlighter

namespace Highlighter.Enters

variable {h : Highlighter} {lines : List (List Char)} {k i id : Nat} {l : List Char} {s : State} {p p' : Painting}
  {m : Match} {f : Frame} {r : Region Nat Pattern}

theorem eq_whole (he : h.Enters lines k i l s p id m f p') (hr : h.grammar.rules[id]? = some (.region r)) {t : String}
    (hlooks : h.engine.LooksFor r.opening t fun _ => []) :
    ∃ x, Text.StandsAt t (Text.withEnd l) x ∧ m = .whole (Text.spanAt t x) := by
  obtain ⟨r', hn⟩ := he.next
  obtain ⟨x, _, _, hfound, _⟩ := firstFrom_eq_some hn
  obtain ⟨q, hmem, hmatch⟩ := choiceAt_eq_some hfound
  rcases State.mem_choices hmem with ⟨_, _, _, hleave⟩ | ⟨id', rule, hrule, hchoice⟩
  · cases hleave
  · cases rule with
    | container inner => cases hchoice
    | piece name q' captures => cases hchoice
    | region r'' =>
      cases hchoice
      rw [hr] at hrule
      cases hrule
      by_cases hx : Text.StandsAt t (Text.withEnd l) x
      · rw [hlooks.found (by omega) hx, Option.some.injEq] at hmatch
        exact ⟨x, hx, hmatch.symm⟩
      · rw [hlooks.missed hx] at hmatch
        cases hmatch

theorem scopesAt_whole {source : String} {tokens : TokenizedText} (htokens : h.tokenize source true = .ok tokens) {sp : Span}
    (he : h.Enters ((Text.lines source).map String.toList) k i l s p id (.whole sp) f p') (hsp : sp.start < sp.stop)
    (hr : h.grammar.rules[id]? = some (.region r)) (hcaptures : ∀ c ∈ r.openingCaptures, c.patterns = none)
    {closing : Pattern} (hclosing : r.closing = .fixed closing) {b : Nat} (h1 : Text.offsetAt l sp.start ≤ b)
    (h2 : b < Text.offsetAt l sp.stop) : tokens.scopesAt k b =
      s.scopes ++ Scope.ofTemplate r.name ((Match.whole sp).texts (Text.withEnd l)) ++
        Capture.ofWhole r.openingCaptures ((Match.whole sp).texts (Text.withEnd l)) := by
  have hn := he.next_of_region hr
  have hp : Painting.UpTo l.length sp.start (p.paint i sp.start s.scopes) :=
    (Painting.upTo_law l.length).paint (next_eq_some hn).2.1 trivial (upTo_of_reaches he.line he.reaches).2
  have hstep := step_of_enter_whole (k + 1) (h.againIn k l) p hsp hn hcaptures hclosing
  exact scopesAt_of_step htokens he.line he.reaches hstep (fun z h3 h4 hz => hp.at_paint h3 h4 hz _) h1 h2

end Highlighter.Enters

end Highlight
