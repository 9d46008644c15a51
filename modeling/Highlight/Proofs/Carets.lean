import Highlight.Proofs.Lines
import Highlight.Proofs.ScopeNames

/-!
# Under the carets

The tokens that overlap the place of an assertion are those of the bytes under its
carets. This holds since carets and tokens are never empty and the tokens of a line
follow one another: an overlap is a byte in common.
-/

namespace Highlight

/-- The scopes of the token that covers a byte, counted from the start of the line. -/
def Token.scopesAt : List Token → Nat → List String
  | [], _ => []
  | t :: ts, b =>
    if b < t.content.utf8ByteSize then t.scopes else scopesAt ts (b - t.content.utf8ByteSize)

namespace Scope.Found

theorem mem_names_insert {f : Found} {n m : String} : m ∈ (f.insert n).names ↔ m ∈ f.names ∨ m = n := by
  rw [names_insert]
  split
  · rename_i hn
    constructor
    · exact .inl
    · rintro (hm | rfl)
      · exact hm
      · exact hn
  · rw [List.mem_append, List.mem_singleton]

theorem mem_names_foldl : ∀ {names : List String} {f : Found} {m : String},
    m ∈ (names.foldl insert f).names ↔ m ∈ f.names ∨ m ∈ names
  | [], f, m => by simp
  | n :: names, f, m => by
    rw [List.foldl_cons, mem_names_foldl, mem_names_insert, List.mem_cons, or_assoc]

theorem foldl_insert_const (names : List String) : ∀ {bytes : List Nat} (f : Found), bytes ≠ [] →
    (bytes.flatMap fun _ => names).foldl insert f = names.foldl insert f
  | [], _, h => absurd rfl h
  | [_], f, _ => by rw [List.flatMap_singleton]
  | _ :: c :: bytes, f, _ => by
    rw [List.flatMap_cons, List.foldl_append, foldl_insert_const names _ (List.cons_ne_nil c bytes)]
    exact foldl_insert_of_subset fun n hn => mem_names_foldl.mpr (.inr hn)

end Scope.Found

namespace Token

theorem scopesAt_of_lt {t : Token} {ts : List Token} {b : Nat} (hb : b < t.content.utf8ByteSize) :
    scopesAt (t :: ts) b = t.scopes := by
  rw [scopesAt, if_pos hb]

theorem scopesAt_add (t : Token) (ts : List Token) (b : Nat) :
    scopesAt (t :: ts) (t.content.utf8ByteSize + b) = scopesAt ts b := by
  rw [scopesAt, if_neg (by omega), Nat.add_sub_cancel_left]

variable {span : Span}

/-- A token has a byte in a place just if it overlaps it. -/
theorem overlaps_iff (hspan : span.start < span.stop) {t : Token} (ht : t.content ≠ "") :
    t.span.overlaps span = true ↔ (List.range t.content.utf8ByteSize).filter
      (fun b => decide (span.start ≤ t.offset + b ∧ t.offset + b < span.stop)) ≠ [] := by
  have hpos : t.content.utf8ByteSize ≠ 0 := fun h => ht (String.utf8ByteSize_eq_zero_iff.mp h)
  unfold Span.overlaps Token.span
  simp only [Bool.and_eq_true, decide_eq_true_eq]
  constructor
  · rintro ⟨h1, h2⟩
    refine List.ne_nil_of_mem (a := span.start - t.offset) (List.mem_filter.mpr ⟨?_, ?_⟩)
    · rw [List.mem_range]
      omega
    · rw [decide_eq_true_eq]
      omega
  · intro hne
    obtain ⟨b, hb⟩ := List.exists_mem_of_ne_nil _ hne
    obtain ⟨h1, h2⟩ := List.mem_filter.mp hb
    rw [List.mem_range] at h1
    rw [decide_eq_true_eq] at h2
    omega

open Scope.Found (insert) in
/-- Going over the bytes of a place finds what going over the tokens finds. -/
theorem foldl_insert_bytes (hspan : span.start < span.stop) : ∀ {tokens : List Token} {offset : Nat}
    (f : Scope.Found), Follow offset tokens →
    (((List.range (spelling tokens).utf8ByteSize).filter
        fun b => decide (span.start ≤ offset + b ∧ offset + b < span.stop)).flatMap (scopesAt tokens)).foldl insert f =
      ((tokens.filter fun t => t.span.overlaps span).flatMap scopes).foldl insert f
  | [], _, _, _ => rfl
  | t :: ts, offset, f, ⟨ho, hc, hr⟩ => by
    have hhead : (((List.range t.content.utf8ByteSize).filter
        fun b => decide (span.start ≤ offset + b ∧ offset + b < span.stop)).flatMap (scopesAt (t :: ts))).foldl insert f =
        ((if t.span.overlaps span then t.scopes else []).foldl insert f) := by
      rw [List.flatMap_congr fun b hb => scopesAt_of_lt (List.mem_range.mp (List.mem_filter.mp hb).1), ← ho]
      by_cases hover : t.span.overlaps span = true
      · rw [if_pos hover]
        exact Scope.Found.foldl_insert_const t.scopes f ((overlaps_iff hspan hc).mp hover)
      · rw [if_neg hover, Classical.not_not.mp fun h => hover ((overlaps_iff hspan hc).mpr h)]
        rfl
    have htail (g : Scope.Found) : ((((List.range (spelling ts).utf8ByteSize).map (t.content.utf8ByteSize + ·)).filter
        fun b => decide (span.start ≤ offset + b ∧ offset + b < span.stop)).flatMap (scopesAt (t :: ts))).foldl insert g =
        ((ts.filter fun t => t.span.overlaps span).flatMap scopes).foldl insert g := by
      rw [List.filter_map, List.flatMap_map, ← foldl_insert_bytes hspan g hr]
      congr 1
      rw [List.flatMap_congr fun b _ => scopesAt_add t ts b]
      congr 1
      refine List.filter_congr fun b _ => ?_
      have hstop : t.span.stop + b = offset + (t.content.utf8ByteSize + b) := by
        rw [← ho, ← Nat.add_assoc]
        rfl
      rw [hstop]
      rfl
    rw [spelling_cons, String.utf8ByteSize_append, List.range_add, List.filter_append, List.flatMap_append,
      List.foldl_append, hhead, htail, ← List.foldl_append]
    congr 1
    rw [List.filter_cons]
    split
    · rw [List.flatMap_cons]
    · rfl

end Token

end Highlight
