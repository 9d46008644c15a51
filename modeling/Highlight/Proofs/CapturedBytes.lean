import Highlight.Proofs.Bytes

/-!
# The bytes of a match

A match is painted window by window: the ends of the captures that count cut it, and none of them
lies inside a window. So all bytes of a window are covered by the same captures, and have the
scopes that these put on those of the match. Where one of them has patterns the window is
tokenized again, from a stack of these scopes and up to its own end, so that it is painted to the
end, and with nothing less than these scopes.
-/

namespace Highlight

/-! ## The record of a byte -/

def Span.hasByte (line : List Char) (s : Span) (b : Nat) : Bool :=
  decide (Text.offsetAt line s.start ≤ b) && decide (b < Text.offsetAt line s.stop)

theorem Span.hasByte_iff {line : List Char} {s : Span} {b : Nat} :
    s.hasByte line b = true ↔ Text.offsetAt line s.start ≤ b ∧ b < Text.offsetAt line s.stop := by
  simp [hasByte]

theorem Span.hasByte_of_position {line : List Char} {x b : Nat} (h1 : Text.offsetAt line x ≤ b)
    (h2 : b < Text.offsetAt line (x + 1)) (s : Span) : s.hasByte line b = decide (s.start ≤ x ∧ x < s.stop) := by
  rw [Bool.eq_iff_iff, hasByte_iff, decide_eq_true_eq]
  constructor
  · rintro ⟨hstart, hstop⟩
    constructor
    · by_cases h : s.start ≤ x
      · exact h
      · have := Text.offsetAt_mono line (show x + 1 ≤ s.start by omega)
        omega
    · by_cases h : x < s.stop
      · exact h
      · have := Text.offsetAt_mono line (show s.stop ≤ x by omega)
        omega
  · rintro ⟨hstart, hstop⟩
    have h3 := Text.offsetAt_mono line hstart
    have h4 := Text.offsetAt_mono line (show x + 1 ≤ s.stop by omega)
    omega

namespace Painting

def scopesAt? (p : Painting) (line : List Char) (b : Nat) : Option (List String) :=
  (p.stretches.find? fun s => s.span.hasByte line b).map (·.scopes)

variable {p : Painting} {line : List Char} {i x b : Nat} {scopes : List String}

theorem scopesAt?_of_at (ht : Tiling p.stretches i) (h : p.At x scopes) (h1 : Text.offsetAt line x ≤ b)
    (h2 : b < Text.offsetAt line (x + 1)) : p.scopesAt? line b = some scopes := by
  unfold scopesAt?
  obtain ⟨s, hs, hstart, hstop, rfl⟩ := h
  generalize p.stretches = l at ht hs
  induction ht with
  | nil => cases hs
  | @cons t before hb hlt _ ih =>
    rcases List.mem_cons.mp hs with rfl | hs
    · rw [List.find?_cons_of_pos]
      · rfl
      · rw [Span.hasByte_of_position h1 h2]
        exact decide_eq_true ⟨hstart, hstop⟩
    · rw [List.find?_cons_of_neg]
      · exact ih hs
      · -- the stretches before this one have ended
        have := hb.stop_le_of_mem hs
        rw [Span.hasByte_of_position h1 h2, decide_eq_true_eq]
        omega

theorem scopesAt?_eq_none (ht : Tiling p.stretches i) (hb : Text.offsetAt line i ≤ b) : p.scopesAt? line b = none := by
  unfold scopesAt?
  rw [Option.map_eq_none_iff, List.find?_eq_none]
  intro s hs
  have := Text.offsetAt_mono line (ht.stop_le_of_mem hs)
  rw [Span.hasByte_iff]
  omega

theorem Tiling.exists_mem {l : List Stretch} (ht : Tiling l i) (hx : x < i) :
    ∃ s ∈ l, s.span.start ≤ x ∧ x < s.span.stop := by
  induction ht with
  | nil => omega
  | @cons s before hb hlt _ ih =>
    by_cases h : s.span.start ≤ x
    · exact ⟨s, List.mem_cons_self .., h, hx⟩
    · obtain ⟨t, ht, h1, h2⟩ := ih (by omega)
      exact ⟨t, List.mem_cons_of_mem _ ht, h1, h2⟩

theorem UpTo.exists_at {n : Nat} (h : UpTo n i p) (hx : x < i) (hn : x < n) : ∃ scopes, p.At x scopes := by
  have hreached := h.painted.reached
  have hlength := h.length
  obtain ⟨s, hs, h1, h2⟩ := h.painted.tiled.exists_mem (show x < p.covered by omega)
  exact ⟨s.scopes, s, hs, h1, h2, rfl⟩

theorem UpTo.scopesAt?_eq_none {n : Nat} (h : UpTo n i p) (hb : Text.offsetAt line i ≤ b) : p.scopesAt? line b = none :=
  Painting.scopesAt?_eq_none h.painted.tiled (Nat.le_trans (Text.offsetAt_mono line h.covered) hb)

end Painting

/-! ## Captures that count -/

namespace Active

/-- The capture at an index of a list, where it counts for a match: its group captured something
inside the match, and not inside a capture with patterns that counts and comes before it. -/
def at? (m : Match) (captures : List (Capture Nat)) (i : Nat) : Option Active :=
  match captures[i]? with
  | none => none
  | some c =>
    match span? m c.group with
    | none => none
    | some s =>
      if (List.finRange i).any fun j => (at? m captures j).any fun a => a.capture.patterns.isSome && a.span.contains s
      then none else some ⟨s, c⟩
termination_by i
decreasing_by exact j.isLt

variable {m : Match} {captures : List (Capture Nat)} {i : Nat}

theorem at?_eq_none (h : (captures[i]?.bind fun c => span? m c.group) = none) : at? m captures i = none := by
  rw [at?]
  split
  · rfl
  · rename_i c hc
    rw [hc, Option.bind_some] at h
    rw [h]

theorem at?_eq {c : Capture Nat} {s : Span} (hc : captures[i]? = some c) (hs : span? m c.group = some s) :
    at? m captures i = if shadows ((List.range i).filterMap (at? m captures)) s then none else some ⟨s, c⟩ := by
  have hshadows : shadows ((List.range i).filterMap (at? m captures)) s = (List.finRange i).any fun j =>
      (at? m captures j).any fun a => a.capture.patterns.isSome && a.span.contains s := by
    unfold shadows
    rw [List.any_filterMap, ← List.map_coe_finRange_eq_range, List.any_map]
    rfl
  rw [hshadows, at?, hc]
  simp only [hs]

theorem ofMatch_eq (m : Match) (captures : List (Capture Nat)) :
    ofMatch m captures = (List.range captures.length).filterMap (at? m captures) := by
  -- what has been found so far is what counts among the captures before
  have hcollect (rest : List (Capture Nat)) : ∀ before, captures = before ++ rest →
      collect m ((List.range before.length).filterMap (at? m captures)) rest =
        (List.range captures.length).filterMap (at? m captures) := by
    induction rest with
    | nil =>
      intro before hb
      rw [collect, hb, List.append_nil]
    | cons c rest ih =>
      intro before hb
      have hc : captures[before.length]? = some c := by simp [hb]
      have hnext := ih (before ++ [c]) (by simp [hb])
      rw [List.length_append, List.length_singleton, List.range_succ, List.filterMap_append] at hnext
      rw [collect, ← hnext]
      cases hs : span? m c.group with
      | none =>
        have hat : at? m captures before.length = none := at?_eq_none (by rw [hc, Option.bind_some, hs])
        simp [hat]
      | some s =>
        have hat := at?_eq hc hs
        simp only
        by_cases hsh : shadows ((List.range before.length).filterMap (at? m captures)) s = true
        · rw [if_pos hsh] at hat ⊢
          simp [hat]
        · rw [if_neg hsh] at hat ⊢
          simp [hat]
  exact hcollect captures [] rfl

def around (m : Match) (captures : List (Capture Nat)) (x : Nat) : List Active :=
  (ofMatch m captures).filter fun a => decide (a.span.start ≤ x ∧ x < a.span.stop)

def atByte (m : Match) (captures : List (Capture Nat)) (line : List Char) (b : Nat) : List Active :=
  ((List.range captures.length).filterMap (at? m captures)).filter fun a => a.span.hasByte line b

def names (groups : List (Option String)) (actives : List Active) : List String :=
  actives.flatMap fun a => Scope.ofTemplate a.capture.name groups

theorem atByte_eq {line : List Char} {x b : Nat} (h1 : Text.offsetAt line x ≤ b) (h2 : b < Text.offsetAt line (x + 1)) :
    atByte m captures line b = around m captures x := by
  unfold atByte around
  rw [← ofMatch_eq]
  refine List.filter_congr fun a _ => ?_
  rw [Span.hasByte_of_position h1 h2]

theorem capture_of_at? {a : Active} (h : at? m captures i = some a) : captures[i]? = some a.capture := by
  cases hc : captures[i]? with
  | none =>
    rw [at?_eq_none (by rw [hc]; rfl)] at h
    cases h
  | some c =>
    cases hs : span? m c.group with
    | none =>
      rw [at?_eq_none (by rw [hc, Option.bind_some, hs])] at h
      cases h
    | some s =>
      rw [at?_eq hc hs] at h
      split at h
      · cases h
      · cases h
        rfl

theorem pairwise_atByte {R : Capture Nat → Capture Nat → Prop} (hsorted : captures.Pairwise R) (line : List Char) (b : Nat) :
    (atByte m captures line b).Pairwise fun a a' => R a.capture a'.capture := by
  unfold atByte
  apply List.Pairwise.filter
  rw [List.pairwise_filterMap]
  refine List.pairwise_lt_range.imp ?_
  intro i j hlt a ha a' ha'
  obtain ⟨hi, hi'⟩ := List.getElem?_eq_some_iff.mp (capture_of_at? ha)
  obtain ⟨hj, hj'⟩ := List.getElem?_eq_some_iff.mp (capture_of_at? ha')
  have := List.pairwise_iff_getElem.mp hsorted i j hi hj hlt
  rwa [hi', hj'] at this

end Active

/-! ## Windows -/

namespace Segment

variable {text : Array Char} {m : Match} {captures : List (Capture Nat)} {base : List String} {seg : Segment} {x : Nat}

theorem apart_of_mem_zip {a b z : Nat} : ∀ {l : List Nat}, l.Pairwise (· < ·) → (a, b) ∈ l.zip l.tail → z ∈ l → z ≤ a ∨ b ≤ z
  | [], _, h, _ => by cases h
  | [_], _, h, _ => by cases h
  | u :: v :: rest, hl, h, hz => by
    obtain ⟨hu, hr⟩ := List.pairwise_cons.mp hl
    rw [List.tail_cons, List.zip_cons_cons] at h
    rcases List.mem_cons.mp h with he | hrest
    · cases he
      rcases List.mem_cons.mp hz with rfl | hz
      · exact .inl (Nat.le_refl _)
      · rcases List.mem_cons.mp hz with rfl | hz
        · exact .inr (Nat.le_refl _)
        · exact .inr (Nat.le_of_lt ((List.pairwise_cons.mp hr).1 z hz))
    · -- the bounds are further right than the first one
      rcases List.mem_cons.mp hz with rfl | hz
      · exact .inl (Nat.le_of_lt (hu a (List.of_mem_zip hrest).1))
      · exact apart_of_mem_zip hr hrest hz

/-- A capture that counts covers all of a window or nothing of it. -/
theorem contains_eq (hseg : seg ∈ ofMatch text m captures base) {a : Active} (ha : a ∈ Active.ofMatch m captures)
    (h1 : seg.span.start ≤ x) (h2 : x < seg.span.stop) :
    a.span.contains seg.span = decide (a.span.start ≤ x ∧ x < a.span.stop) := by
  obtain ⟨⟨start, stop⟩, hzip, rfl⟩ := List.mem_map.mp hseg
  have hsort := pairwise_bounds m.span (Active.ofMatch m captures)
  have hstart := apart_of_mem_zip hsort hzip (mem_bounds.mpr (.inr (.inr ⟨a, ha, .inl rfl⟩)))
  have hstop := apart_of_mem_zip hsort hzip (mem_bounds.mpr (.inr (.inr ⟨a, ha, .inr rfl⟩)))
  unfold Span.contains between at *
  rw [Bool.eq_iff_iff, Bool.and_eq_true, decide_eq_true_eq, decide_eq_true_eq, decide_eq_true_eq]
  constructor
  · rintro ⟨h3, h4⟩
    exact ⟨Nat.le_trans h3 h1, Nat.lt_of_lt_of_le h2 h4⟩
  · rintro ⟨h3, h4⟩
    constructor
    · rcases hstart with h | h
      · exact h
      · exact absurd (Nat.le_trans h h3) (Nat.not_le.mpr h2)
    · rcases hstop with h | h
      · exact absurd (Nat.lt_of_lt_of_le h4 h) (Nat.not_lt.mpr h1)
      · exact h

/-- The window around a position has the scopes of the captures around the position. -/
theorem of_mem_ofMatch (hseg : seg ∈ ofMatch text m captures base) (h1 : seg.span.start ≤ x) (h2 : x < seg.span.stop) :
    seg.scopes = base ++ Active.names (m.texts text) (Active.around m captures x) ∧
      seg.again = ((Active.around m captures x).filterMap (·.capture.patterns)).getLast? := by
  have haround : (Active.ofMatch m captures).filter (fun a => a.span.contains seg.span) = Active.around m captures x :=
    List.filter_congr fun a ha => contains_eq hseg ha h1 h2
  obtain ⟨_, _, rfl⟩ := List.mem_map.mp hseg
  exact ⟨congrArg (base ++ Active.names (m.texts text) ·) haround,
    congrArg (fun l => (l.filterMap fun a => a.capture.patterns).getLast?) haround⟩

theorem Linked.exists_mem : ∀ {segments : List Segment} {i j : Nat}, Linked i segments j → i ≤ x → x < j →
    ∃ seg ∈ segments, seg.span.start ≤ x ∧ x < seg.span.stop
  | [], _, _, h, hi, hj => by
    cases h
    omega
  | s :: rest, _, _, ⟨hs, _, hr⟩, hi, hj => by
    by_cases h : x < s.span.stop
    · exact ⟨s, List.mem_cons_self .., hs.trans_le hi, h⟩
    · obtain ⟨seg, hseg, h1, h2⟩ := hr.exists_mem (Nat.not_lt.mp h) hj
      exact ⟨seg, List.mem_cons_of_mem s hseg, h1, h2⟩

end Segment

namespace Painting

variable {n i x : Nat} {p q : Painting} {text : Array Char} {h : Highlighter} {number depth : Nat} {scopes : List String}

theorem over_law (n start : Nat) (scopes : List String) :
    Law (fun i p => UpTo n i p ∧ ∀ x, start ≤ x → x < i → x < n → ∃ above, p.At x (scopes ++ above)) (scopes <+: ·) where
  paint {i j p l} hij hl hp := by
    obtain ⟨above, rfl⟩ := hl
    refine ⟨(upTo_law n).paint hij trivial hp.1, fun x h1 h2 h3 => ?_⟩
    by_cases hx : x < i
    · obtain ⟨above', hat⟩ := hp.2 x h1 hx h3
      exact ⟨above', hat.paint _ _ _⟩
    · exact ⟨above, hp.1.at_paint (Nat.not_lt.mp hx) h2 h3 _⟩
  named _ _ hl := hl.trans (List.prefix_append ..)

/-- A window is painted to its end, over its scopes, and with just them unless it is tokenized again. -/
theorem at_addSegment {seg : Segment} (hseg : seg.span.start ≤ seg.span.stop) (hsize : seg.span.stop ≤ text.size)
    (hp : p.UpTo n seg.span.start) (hq : p.addSegment (h.scanWithin number depth) text seg = .ok q)
    (h1 : seg.span.start ≤ x) (h2 : x < seg.span.stop) (hx : x < n) :
    ∃ above, q.At x (seg.scopes ++ above) ∧ (seg.again = none → above = []) := by
  cases hagain : seg.again with
  | none =>
    unfold addSegment at hq
    rw [hagain] at hq
    cases hq
    exact ⟨[], by rw [List.append_nil]; exact hp.at_paint h1 h2 hx _, fun _ => rfl⟩
  | some rule =>
    have hlaw := over_law n seg.span.start seg.scopes
    have hkept := keeps_addSegment hlaw (Highlighter.keeps_scanWithin hlaw h number depth) hseg hsize List.prefix_rfl
      ⟨hp, fun y h3 h4 _ => absurd h4 (Nat.not_lt.mpr h3)⟩ hq
    obtain ⟨above, hat⟩ := hkept.2 x h1 h2 hx
    exact ⟨above, hat, fun h => by cases h⟩

theorem at_addSegments : ∀ {segments : List Segment} {i j : Nat} {p : Painting}, Segment.Linked i segments j → j ≤ text.size →
    p.UpTo n i → segments.foldlM (addSegment (h.scanWithin number depth) text) p = .ok q →
    ∀ seg ∈ segments, seg.span.start ≤ x → x < seg.span.stop → x < n →
      ∃ above, q.At x (seg.scopes ++ above) ∧ (seg.again = none → above = [])
  | [], _, _, _, _, _, _, _ => by simp
  | s :: rest, _, _, p, ⟨hi, hlt, hr⟩, hj, hp, hq => by
    subst hi
    rw [List.foldlM_cons, Results.bind_eq_ok] at hq
    obtain ⟨p', hp', hq⟩ := hq
    have hsize := Nat.le_trans hr.le hj
    intro seg hseg h1 h2 hx
    rcases List.mem_cons.mp hseg with rfl | hseg
    · obtain ⟨above, hat, hnone⟩ := at_addSegment (Nat.le_of_lt hlt) hsize hp hp' h1 h2 hx
      -- the windows after this one leave it as it is
      have hlaw := at_law x (seg.scopes ++ above)
      exact ⟨above, keeps_addSegments hlaw (Highlighter.keeps_scanWithin hlaw h number depth) hr hj
        (fun _ _ => trivial) hat hq, hnone⟩
    · have hlaw := upTo_law n
      exact at_addSegments hr hj (keeps_addSegment hlaw (Highlighter.keeps_scanWithin hlaw h number depth)
        (Nat.le_of_lt hlt) hsize trivial hp hp') hq seg hseg h1 h2 hx

variable {m : Match} {captures : List (Capture Nat)} {base : List String}

theorem at_addMatch (hm : m.span.start ≤ m.span.stop) (hsize : m.span.stop ≤ text.size) (hp : p.UpTo n m.span.start)
    (hq : p.addMatch (h.scanWithin number depth) text m captures base = .ok q) (h1 : m.span.start ≤ x)
    (h2 : x < m.span.stop) (hx : x < n) :
    ∃ above, q.At x (base ++ Active.names (m.texts text) (Active.around m captures x) ++ above) ∧
      ((∀ a ∈ Active.around m captures x, a.capture.patterns = none) → above = []) := by
  unfold addMatch at hq
  rw [if_neg (by omega)] at hq
  by_cases hcaptures : captures.isEmpty = true
  · rw [if_pos hcaptures] at hq
    cases hq
    rw [List.isEmpty_iff.mp hcaptures]
    have hat := hp.at_paint h1 h2 hx base
    refine ⟨[], ?_, fun _ => rfl⟩
    rw [List.append_nil]
    show At _ x (base ++ [])
    rwa [List.append_nil]
  · rw [if_neg hcaptures] at hq
    have hlinked := Segment.linked_ofMatch text hm captures base
    obtain ⟨seg, hseg, h3, h4⟩ := hlinked.exists_mem h1 h2
    obtain ⟨hscopes, hagain⟩ := Segment.of_mem_ofMatch hseg h3 h4
    obtain ⟨above, hat, hnone⟩ := at_addSegments hlinked hsize hp hq seg hseg h3 h4 hx
    rw [hscopes] at hat
    refine ⟨above, hat, fun hall => hnone ?_⟩
    rw [hagain, List.getLast?_eq_none_iff, List.filterMap_eq_nil_iff]
    exact hall

/-! ## Bytes -/

/-- What painting a match over `base` makes of a line that has been painted up to the match. -/
structure Captured (text : Array Char) (line : List Char) (m : Match) (captures : List (Capture Nat)) (base : List String)
    (p q : Painting) : Prop where
  upTo : q.UpTo line.length m.span.stop
  fresh : ∀ b, m.span.hasByte line b = true → p.scopesAt? line b = none
  inside : ∀ b, m.span.hasByte line b = true → ∃ above,
    q.scopesAt? line b = some (base ++ Active.names (m.texts text) (Active.atByte m captures line b) ++ above) ∧
    ((∀ a ∈ Active.atByte m captures line b, a.capture.patterns = none) → above = [])
  outside : ∀ b, m.span.hasByte line b = false → q.scopesAt? line b = p.scopesAt? line b
  ordered : ∀ b, (Active.atByte m captures line b).Pairwise (·.capture.group ≤ ·.capture.group)

variable {line : List Char}

theorem captured_of_addMatch (hm : m.span.start ≤ m.span.stop) (hsize : m.span.stop ≤ text.size)
    (hsorted : captures.Pairwise (·.group ≤ ·.group)) (hp : p.UpTo line.length m.span.start)
    (hq : p.addMatch (h.scanWithin number depth) text m captures base = .ok q) :
    Captured text line m captures base p q := by
  have hupTo : q.UpTo line.length m.span.stop := keeps_addMatch (upTo_law line.length)
    (Highlighter.keeps_scanWithin (upTo_law line.length) h number depth) hm hsize trivial hp hq
  refine ⟨hupTo, ?_, ?_, ?_, Active.pairwise_atByte hsorted line⟩
  · intro b hb
    exact hp.scopesAt?_eq_none (Span.hasByte_iff.mp hb).1
  · intro b hb
    obtain ⟨hstart, hstop⟩ := Span.hasByte_iff.mp hb
    obtain ⟨x, h1, h2, hx, h3, h4⟩ := Text.exists_position hstart hstop
    obtain ⟨above, hat, hnone⟩ := at_addMatch hm hsize hp hq h1 h2 hx
    rw [Active.atByte_eq h3 h4]
    exact ⟨above, scopesAt?_of_at hupTo.painted.tiled hat h3 h4, hnone⟩
  · intro b hb
    by_cases hbefore : b < Text.offsetAt line m.span.start
    · obtain ⟨x, _, h2, hx, h3, h4⟩ := Text.exists_position (show Text.offsetAt line 0 ≤ b by simp [Text.offsetAt_zero]) hbefore
      obtain ⟨scopes, hat⟩ := hp.exists_at h2 hx
      have hlaw := at_law x scopes
      have hkept := keeps_addMatch hlaw (Highlighter.keeps_scanWithin hlaw h number depth) hm hsize trivial hat hq
      rw [scopesAt?_of_at hp.painted.tiled hat h3 h4, scopesAt?_of_at hupTo.painted.tiled hkept h3 h4]
    · have hstart := Nat.not_lt.mp hbefore
      have hstop : Text.offsetAt line m.span.stop ≤ b := by
        by_cases hlt : b < Text.offsetAt line m.span.stop
        · rw [Span.hasByte_iff.mpr ⟨hstart, hlt⟩] at hb
          cases hb
        · exact Nat.not_lt.mp hlt
      rw [hp.scopesAt?_eq_none hstart, hupTo.scopesAt?_eq_none hstop]

end Painting

/-! ## The state that a match is painted in -/

inductive Progress.SameWay : Progress → Progress → Prop
  | done {s : State} {p p' : Painting} : SameWay (.done s p) (.done s p')
  | next {i : Nat} {s : State} {p p' : Painting} : SameWay (.next i s p) (.next i s p')

namespace Highlighter

/-- Whichever way captures are tokenized again, the states are the same. -/
structure Unmoved (h : Highlighter) (number : Nat) (again again' : Retokenize) : Prop where
  step : ∀ {text : Array Char} {i : Nat} {s : State} {p p' : Painting} {r r' : Progress},
    h.step number again text i s p = .ok r → h.step number again' text i s p' = .ok r' → r.SameWay r'
  scan : ∀ {text : Array Char} {i : Nat} {s : State} {p p' : Painting} {e e' : State × Painting},
    h.scan number again text i s p = .ok e → h.scan number again' text i s p' = .ok e' → e.1 = e'.1
  check : ∀ {text : Array Char} {i : Nat} {frames : List Frame} {p p' : Painting} {e e' : List Frame × Nat × Painting},
    h.checkConditions again text i p frames = .ok e → h.checkConditions again' text i p' frames = .ok e' →
    e.1 = e'.1 ∧ e.2.1 = e'.2.1

variable {h : Highlighter} {number : Nat} {again again' : Retokenize} {text : Array Char}

theorem sameWay_settle {i : Nat} {s : State} {m : Match} {p p' : Painting} {c : Choice} {r r' : Progress}
    (hr : h.settle number text i s m p c = .ok r) (hr' : h.settle number text i s m p' c = .ok r') : r.SameWay r' := by
  cases c with
  | leave f below =>
    simp only [settle, Except.ok.injEq] at hr hr'
    subst hr hr'
    by_cases hgiven : m.span.stop ≤ i ∧ f.enteredAt = some i
    · rw [if_pos hgiven, if_pos hgiven]
      exact .done
    · rw [if_neg hgiven, if_neg hgiven]
      exact .next
  | piece name captures =>
    simp only [settle, Except.ok.injEq] at hr hr'
    subst hr hr'
    by_cases hgiven : m.span.stop ≤ i
    · rw [if_pos hgiven, if_pos hgiven]
      exact .done
    · rw [if_neg hgiven, if_neg hgiven]
      exact .next
  | enter id r =>
    obtain ⟨closing, hclosing, rfl⟩ := Results.map_eq_ok.mp hr
    obtain ⟨closing', hclosing', rfl⟩ := Results.map_eq_ok.mp hr'
    rw [hclosing] at hclosing'
    cases hclosing'
    exact .next

theorem sameWay_step {i : Nat} {s : State} {p p' : Painting} {r r' : Progress}
    (hr : h.step number again text i s p = .ok r) (hr' : h.step number again' text i s p' = .ok r') : r.SameWay r' := by
  cases hn : h.next text i s with
  | none =>
    rw [step_of_next_eq_none h number again text p hn] at hr
    rw [step_of_next_eq_none h number again' text p' hn] at hr'
    cases hr
    cases hr'
    exact .done
  | some cm =>
    obtain ⟨c, m⟩ := cm
    rw [step_of_next_eq_some h number again text p hn] at hr
    rw [step_of_next_eq_some h number again' text p' hn] at hr'
    cases hpainted : s.painted? text i m c with
    | none =>
      rw [hpainted] at hr hr'
      cases hr
      cases hr'
      exact .done
    | some cs =>
      rw [hpainted] at hr hr'
      obtain ⟨q, _, hr⟩ := Results.bind_eq_ok.mp hr
      obtain ⟨q', _, hr'⟩ := Results.bind_eq_ok.mp hr'
      exact sameWay_settle hr hr'

theorem scan_sameState {i : Nat} {s : State} {p p' : Painting} {e e' : State × Painting}
    (he : h.scan number again text i s p = .ok e) (he' : h.scan number again' text i s p' = .ok e') : e.1 = e'.1 := by
  induction i, s, p using scan.induct h number again text generalizing p' with
  | case1 i s p d hstep =>
    rw [scan_of_error hstep] at he
    cases he
  | case2 i s p s₁ p₁ hstep =>
    rw [scan_of_done hstep] at he
    cases he
    cases hstep' : h.step number again' text i s p' with
    | error d =>
      rw [scan_of_error hstep'] at he'
      cases he'
    | ok r' =>
      cases sameWay_step hstep hstep'
      rw [scan_of_done hstep'] at he'
      cases he'
      rfl
  | case3 i s p j s₁ p₁ hstep ih =>
    rw [scan_of_next hstep] at he
    cases hstep' : h.step number again' text i s p' with
    | error d =>
      rw [scan_of_error hstep'] at he'
      cases he'
    | ok r' =>
      cases sameWay_step hstep hstep'
      rw [scan_of_next hstep'] at he'
      exact ih he he'

theorem sameWay_checkConditions : ∀ {frames : List Frame} {i : Nat} {p p' : Painting} {e e' : List Frame × Nat × Painting},
    h.checkConditions again text i p frames = .ok e → h.checkConditions again' text i p' frames = .ok e' →
    e.1 = e'.1 ∧ e.2.1 = e'.2.1
  | [], _, _, _, _, _, he, he' => by
    cases he
    cases he'
    exact ⟨rfl, rfl⟩
  | f :: inner, i, p, p', e, e', he, he' => by
    rw [checkConditions] at he he'
    cases hl : f.region.lasting with
    | untilClosed closingLast =>
      rw [hl] at he he'
      obtain ⟨⟨stay, stop, q⟩, hq, he⟩ := Results.bind_eq_ok.mp he
      obtain ⟨⟨stay', stop', q'⟩, hq', he'⟩ := Results.bind_eq_ok.mp he'
      cases he
      cases he'
      obtain ⟨h1, h2⟩ := sameWay_checkConditions hq hq'
      exact ⟨congrArg (f :: ·) h1, h2⟩
    | whileHolds =>
      rw [hl] at he he'
      cases hmatch : h.engine.matchAt f.closing text i i with
      | none =>
        simp only [hmatch] at he he'
        cases he
        cases he'
        exact ⟨rfl, rfl⟩
      | some m =>
        simp only [hmatch] at he he'
        obtain ⟨_, _, he⟩ := Results.bind_eq_ok.mp he
        obtain ⟨_, _, he'⟩ := Results.bind_eq_ok.mp he'
        obtain ⟨⟨stay, stop, q⟩, hq, he⟩ := Results.bind_eq_ok.mp he
        obtain ⟨⟨stay', stop', q'⟩, hq', he'⟩ := Results.bind_eq_ok.mp he'
        cases he
        cases he'
        obtain ⟨h1, h2⟩ := sameWay_checkConditions hq hq'
        exact ⟨congrArg (f :: ·) h1, h2⟩

/-- A match paints its bytes and no others, each with the scopes of the captures that count
around it; and no state depends on what is opened when they are tokenized again. -/
theorem captures_paint_their_bytes (h : Highlighter) (number depth : Nat) (text : Array Char) (line : List Char) (m : Match)
    (captures : List (Capture Nat)) (base : List String) (p q : Painting) (hm : m.span.start ≤ m.span.stop)
    (hsize : m.span.stop ≤ text.size) (hsorted : captures.Pairwise (·.group ≤ ·.group))
    (hp : p.UpTo line.length m.span.start)
    (hq : p.addMatch (h.scanWithin number depth) text m captures base = .ok q) :
    Painting.Captured text line m captures base p q ∧ ∀ again, h.Unmoved number (h.scanWithin number depth) again :=
  ⟨Painting.captured_of_addMatch hm hsize hsorted hp hq, fun _ => ⟨sameWay_step, scan_sameState, sameWay_checkConditions⟩⟩

end Highlighter

/-! ## An example -/

namespace Overlap

def highlighter : Highlighter where
  grammar := {
    name := none
    scopeName := "g"
    rules := #[.container [], .container [2], .piece (some "letter") ⟨"b", .text ['b'], 0⟩ []]
    candidates := #[[], [2], []]
    candidates_eq := by cbv }
  engine := .backtracking

def found : Match where
  span := ⟨1, 5⟩
  captured := [some ⟨0, 3⟩, some ⟨1, 2⟩, some ⟨2, 5⟩]

def captures : List (Capture Nat) :=
  [⟨1, some "one", some 1⟩, ⟨2, some "two", none⟩, ⟨3, some "three", none⟩]

def line : List Char :=
  ['é', 'a', 'b', 'c', 'd']

def before : Painting :=
  (Painting.blank 5).paint 0 1 ["g"]

def after : Painting where
  length := 5
  stretches := [⟨⟨3, 5⟩, ["m", "three"]⟩, ⟨⟨2, 3⟩, ["m", "one", "three", "letter"]⟩, ⟨⟨1, 2⟩, ["m", "one"]⟩, ⟨⟨0, 1⟩, ["g"]⟩]

theorem ofMatch_found : Segment.ofMatch (Text.withEnd line) found captures ["m"] =
    [⟨⟨1, 2⟩, ["m", "one"], some 1⟩, ⟨⟨2, 3⟩, ["m", "one", "three"], some 1⟩, ⟨⟨3, 5⟩, ["m", "three"], none⟩] := by
  cbv

theorem addSegment_one : before.addSegment (highlighter.scanWithin 1 2) (Text.withEnd line) ⟨⟨1, 2⟩, ["m", "one"], some 1⟩ =
    .ok ⟨5, after.stretches.drop 2⟩ := by
  have hscan : highlighter.scan 1 (highlighter.scanWithin 1 1) ((Text.withEnd line).extract 0 2) 1
      (.start 1 ["m", "one"]) before = .ok (.start 1 ["m", "one"], ⟨5, after.stretches.drop 2⟩) :=
    Highlighter.scan_of_done (by cbv)
  exact congrArg (Except.map (·.2)) hscan

theorem addSegment_letter : (⟨5, after.stretches.drop 2⟩ : Painting).addSegment (highlighter.scanWithin 1 2)
    (Text.withEnd line) ⟨⟨2, 3⟩, ["m", "one", "three"], some 1⟩ = .ok ⟨5, after.stretches.drop 1⟩ := by
  have hletter : highlighter.step 1 (highlighter.scanWithin 1 1) ((Text.withEnd line).extract 0 3) 2
      (.start 1 ["m", "one", "three"]) ⟨5, after.stretches.drop 2⟩ =
      .ok (.next 3 (.start 1 ["m", "one", "three"]) ⟨5, after.stretches.drop 1⟩) := by cbv
  have hscan := (Highlighter.scan_of_next hletter).trans (Highlighter.scan_of_done (by cbv))
  exact congrArg (Except.map (·.2)) hscan

theorem addMatch_found :
    before.addMatch (highlighter.scanWithin 1 2) (Text.withEnd line) found captures ["m"] = .ok after := by
  unfold Painting.addMatch
  rw [if_neg (by decide), if_neg (by decide), ofMatch_found, List.foldlM_cons, addSegment_one]
  simp only [bind, Except.bind]
  rw [List.foldlM_cons, addSegment_letter]
  rfl

end Overlap

/-- The first group reaches out of the match, and leaves what is in it to its patterns. -/
theorem captures_paint_their_bytes_overlap :
    Painting.Captured (Text.withEnd Overlap.line) Overlap.line Overlap.found Overlap.captures ["m"] Overlap.before Overlap.after ∧
    ∀ again, Overlap.highlighter.Unmoved 1 (Overlap.highlighter.scanWithin 1 2) again :=
  Highlighter.captures_paint_their_bytes Overlap.highlighter 1 2 (Text.withEnd Overlap.line) Overlap.line Overlap.found
    Overlap.captures ["m"] Overlap.before Overlap.after (by decide) (by decide) (by decide)
    ((Painting.upTo_law 5).paint (Nat.zero_le 1) trivial (Painting.upTo_blank 5)) Overlap.addMatch_found

end Highlight
