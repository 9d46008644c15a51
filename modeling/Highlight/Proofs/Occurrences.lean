import Highlight.Proofs.Delimiters
import Highlight.Proofs.LiteralPatterns

/-!
# Where escaped texts are found

An engine reads every text that is escaped, and finds it where the text stands first. Matching
counts characters and what it is asked about counts bytes, but a text stands at the same places by
both counts: offsets grow with positions, and each place of the text is between characters.
-/

namespace Highlight

namespace Text

/-- The text stands in `h` from this byte on. -/
def OccursAt (t h : String) (x : Nat) : Prop :=
  ∃ before after, h = before ++ t ++ after ∧ before.utf8ByteSize = x

structure OccursFirst (t h : String) (b x : Nat) : Prop where
  le : b ≤ x
  occurs : OccursAt t h x
  first : ∀ y, b ≤ y → OccursAt t h y → x ≤ y

def bytesOf (cs : List Char) (span : Span) : Span :=
  ⟨offsetAt cs span.start, offsetAt cs span.stop⟩

variable {t h : String} {i x : Nat}

/-! ## Positions and bytes -/

theorem exists_cut_at (hi : i ≤ h.length) (ht : StandsAt t h.toList.toArray i) :
    ∃ before after, h = before ++ t ++ after ∧ before.length = i := by
  obtain ⟨rest, hrest⟩ := ht
  refine ⟨String.ofList (h.toList.take i), String.ofList rest, ?_, ?_⟩
  · rw [← String.toList_inj, String.toList_append, String.toList_append, String.toList_ofList, String.toList_ofList,
      List.append_assoc, hrest, List.take_append_drop]
  · rw [← String.length_toList, String.toList_ofList, List.length_take, String.length_toList]
    omega

theorem offsetAt_before (before after : String) :
    offsetAt (before ++ after).toList before.length = before.utf8ByteSize := by
  rw [String.toList_append, ← String.length_toList, offsetAt_length, byteCount_toList]

theorem bytesOf_spanAt (before t after : String) :
    bytesOf (before ++ t ++ after).toList (spanAt t before.length) =
      ⟨before.utf8ByteSize, before.utf8ByteSize + t.utf8ByteSize⟩ := by
  have hstart := offsetAt_before before (t ++ after)
  have hstop := offsetAt_before (before ++ t) after
  rw [← String.append_assoc] at hstart
  rw [String.length_append, String.utf8ByteSize_append] at hstop
  unfold bytesOf spanAt
  rw [hstart, hstop]

theorem exists_standsAt (ho : OccursAt t h x) :
    ∃ i, i ≤ h.length ∧ StandsAt t h.toList.toArray i ∧ offsetAt h.toList i = x := by
  obtain ⟨before, after, rfl, rfl⟩ := ho
  refine ⟨before.length, ?_, ?_, ?_⟩
  · rw [String.length_append, String.length_append]
    omega
  · unfold StandsAt
    rw [String.append_assoc, String.toList_append, ← String.length_toList, List.drop_left, String.toList_append]
    exact List.prefix_append _ _
  · rw [String.append_assoc, offsetAt_before]

theorem exists_position_of_boundary (start : h.Pos) :
    ∃ i, i ≤ h.length ∧ positionAt h.toList start.offset.byteIdx = i ∧ offsetAt h.toList i = start.offset.byteIdx := by
  have hsplit := start.splits
  generalize (h.sliceTo start).copy = before at hsplit
  generalize (h.sliceFrom start).copy = after at hsplit
  have hoffset : start.offset.byteIdx = before.utf8ByteSize := congrArg String.Pos.Raw.byteIdx hsplit.offset_eq_rawEndPos
  have heq : h = before ++ after := hsplit.eq_append
  refine ⟨before.length, ?_, ?_, ?_⟩
  · rw [heq, String.length_append]
    omega
  · rw [hoffset, heq, String.toList_append, ← byteCount_toList, positionAt_byteCount, String.length_toList]
  · rw [hoffset, heq, offsetAt_before]

theorem le_of_offsetAt_le {j : Nat} (hi : i ≤ h.length) (hle : offsetAt h.toList i ≤ offsetAt h.toList j) : i ≤ j := by
  by_cases hij : i ≤ j
  · exact hij
  · have hj : j < h.toList.length := by
      rw [String.length_toList]
      omega
    have := offsetAt_lt (Nat.not_le.mp hij) hj
    omega

/-- Where a text stands first by characters it stands first by bytes. -/
theorem StandsFirst.occursFirst {before after : String} (hs : i ≤ (before ++ t ++ after).length)
    (hx : StandsFirst t (before ++ t ++ after).toList.toArray i before.length) :
    OccursFirst t (before ++ t ++ after) (offsetAt (before ++ t ++ after).toList i) before.utf8ByteSize := by
  have hbefore : offsetAt (before ++ t ++ after).toList before.length = before.utf8ByteSize := by
    rw [String.append_assoc, offsetAt_before]
  refine ⟨?_, ⟨before, after, rfl, rfl⟩, ?_⟩
  · rw [← hbefore]
    exact offsetAt_mono _ hx.le
  · intro y hy ho
    obtain ⟨j, _, hstands, rfl⟩ := exists_standsAt ho
    rw [← hbefore]
    apply offsetAt_mono
    apply Nat.le_of_not_lt
    intro hj
    exact hx.first j (le_of_offsetAt_le hs hy) hj hstands

end Text

/-! ## Searching -/

namespace Engine

namespace LooksFor

variable {engine : Engine} {p : Pattern} {t : String} {captured : Nat → List (Option Span)} {text : Array Char}
  {start : Nat} {m : Match}

theorem of_search_eq_some (hp : engine.LooksFor p t captured) (h : engine.search p text start = some m) :
    ∃ x, x ≤ text.size ∧ Text.StandsFirst t text start x ∧ m = ⟨Text.spanAt t x, captured x⟩ := by
  obtain ⟨x, hle, hlt, hx, hfirst⟩ := firstFrom_eq_some h
  by_cases hs : Text.StandsAt t text x
  · refine ⟨x, by omega, ⟨hle, hs, ?_⟩, ?_⟩
    · intro j h1 h2 hj
      have hnone := hfirst j h1 h2
      rw [hp.found (by omega) hj] at hnone
      cases hnone
    · rw [hp.found (by omega) hs] at hx
      exact (Option.some.inj hx).symm
  · rw [hp.missed hs] at hx
    cases hx

theorem search_of_standsFirst (hp : engine.LooksFor p t captured) {x : Nat} (hx : Text.StandsFirst t text start x)
    (hsize : x ≤ text.size) : engine.search p text start = some ⟨Text.spanAt t x, captured x⟩ := by
  apply firstFrom_of_first (hp.found hsize hx.stands) hx.le
  · omega
  · intro j h1 h2
    exact hp.missed (hx.first j h1 h2)

theorem not_standsAt_of_search (hp : engine.LooksFor p t captured) (h : engine.search p text start = none) {i : Nat}
    (hle : start ≤ i) (hi : i ≤ text.size) : ¬Text.StandsAt t text i := by
  intro hs
  have hnone := firstFrom_eq_none.mp h i hle (by omega)
  rw [hp.found hi hs] at hnone
  cases hnone

end LooksFor

/-- The escaped text is a pattern that is found where the text occurs first from a place between
characters on, with no other groups, and that is not found if it does not occur. The empty text is
found at the place itself. -/
theorem search_escaped {engine : Engine} (hm : engine.ReadsLiterals) (t h : String) :
    ∃ p, engine.read (Literal.escape t) = .ok p ∧ ∀ start : h.Pos,
      (∀ m, engine.search p h.toList.toArray (Text.positionAt h.toList start.offset.byteIdx) = some m →
        ∃ x, Text.OccursFirst t h start.offset.byteIdx x ∧
          m.groups.map (Option.map (Text.bytesOf h.toList)) = [some ⟨x, x + t.utf8ByteSize⟩]) ∧
      (engine.search p h.toList.toArray (Text.positionAt h.toList start.offset.byteIdx) = none →
        ∀ x, start.offset.byteIdx ≤ x → ¬Text.OccursAt t h x) ∧
      (t = "" → ∃ m, engine.search p h.toList.toArray (Text.positionAt h.toList start.offset.byteIdx) = some m ∧
        m.groups.map (Option.map (Text.bytesOf h.toList)) = [some ⟨start.offset.byteIdx, start.offset.byteIdx⟩]) := by
  obtain ⟨p, hp, hlooks⟩ := hm.exists_looksFor_escape t
  refine ⟨p, hp, ?_⟩
  intro start
  obtain ⟨i, hi, hposition, hoffset⟩ := Text.exists_position_of_boundary start
  rw [hposition, ← hoffset]
  have hsize : h.toList.toArray.size = h.length := by
    rw [List.size_toArray, String.length_toList]
  refine ⟨?_, ?_, ?_⟩
  · intro m hm
    obtain ⟨x, hx, hfirst, rfl⟩ := hlooks.of_search_eq_some hm
    obtain ⟨before, after, rfl, rfl⟩ := Text.exists_cut_at (by omega) hfirst.stands
    refine ⟨before.utf8ByteSize, hfirst.occursFirst hi, ?_⟩
    show [some (Text.bytesOf _ (Text.spanAt t before.length))] = _
    rw [Text.bytesOf_spanAt]
  · intro hnone x hle ho
    obtain ⟨j, hj, hstands, rfl⟩ := Text.exists_standsAt ho
    exact hlooks.not_standsAt_of_search hnone (Text.le_of_offsetAt_le hi hle) (by omega) hstands
  · rintro rfl
    have hfirst : Text.StandsFirst "" h.toList.toArray i i :=
      ⟨Nat.le_refl i, List.nil_prefix, fun j h1 h2 => absurd h1 (by omega)⟩
    exact ⟨_, hlooks.search_of_standsFirst hfirst (by omega), rfl⟩

/-- Both characters are metacharacters, and one of them stands earlier without the other. -/
theorem search_escaped_metacharacters :
    backtracking.ReadsLiterals ∧ ∃ p m, backtracking.read (Literal.escape "$.") = .ok p ∧
      backtracking.search p "é$x$.".toList.toArray 0 = some m ∧
      m.groups.map (Option.map (Text.bytesOf "é$x$.".toList)) = [some ⟨4, 6⟩] := by
  refine ⟨readsLiterals_backtracking, ?_⟩
  obtain ⟨p, hp, hsearch⟩ := search_escaped readsLiterals_backtracking "$." "é$x$."
  obtain ⟨hfound, hmissed, _⟩ := hsearch ("é$x$.".startPos)
  have hplace {x : Nat} (ho : Text.OccursAt "$." "é$x$." x) : x = 4 := by
    obtain ⟨i, hi, hstands, rfl⟩ := Text.exists_standsAt ho
    have hall : ∀ i ≤ 5, Text.StandsAt "$." "é$x$.".toList.toArray i → i = 3 := by decide
    obtain rfl := hall i hi hstands
    decide
  have ho : Text.OccursAt "$." "é$x$." 4 := ⟨"é$x", "", by decide, by decide⟩
  cases hs : backtracking.search p "é$x$.".toList.toArray 0 with
  | none => exact absurd ho (hmissed hs 4 (Nat.zero_le 4))
  | some m =>
    obtain ⟨x, hfirst, hgroups⟩ := hfound m hs
    obtain rfl := hplace hfirst.occurs
    exact ⟨p, m, hp, hs, hgroups⟩

end Engine

end Highlight
