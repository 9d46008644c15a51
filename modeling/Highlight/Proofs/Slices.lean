import Highlight.Proofs.Offsets
import Mathlib.Data.List.Basic

/-!
# Slices at bytes

A text can be cut at a byte only where a character starts. The first of a character is such a place, and
so are the place after it, where it has one byte, and the end of the digits that a text begins
with, which are told by their bytes.
-/

namespace Highlight.Text

/-- The text before an offset and the text from it on, if there is no character across it. -/
def splitAt? (cs : List Char) (offset : Nat) : Option (List Char × List Char) :=
  let i := positionAt cs offset
  if offsetAt cs i = offset then some (cs.take i, cs.drop i) else none

def find? (c : Char) (cs : List Char) : Option Nat :=
  if c ∈ cs then some (offsetAt cs (cs.idxOf c)) else none

def isDigitByte (b : UInt8) : Bool :=
  48 ≤ b.toNat && b.toNat ≤ 57

def digitBytes (cs : List Char) : Nat :=
  ((cs.flatMap String.utf8EncodeChar).takeWhile isDigitByte).length

variable {c : Char}

theorem splitAt?_append (cs ds : List Char) : splitAt? (cs ++ ds) (byteCount cs) = some (cs, ds) := by
  unfold splitAt?
  simp only [positionAt_byteCount, offsetAt_length, if_pos, List.take_left, List.drop_left]

/-- The place after a character of one byte. -/
theorem splitAt?_succ (hc : c.utf8Size = 1) (cs ds : List Char) :
    splitAt? (cs ++ c :: ds) (byteCount cs + 1) = some (cs ++ [c], ds) := by
  have hlength : cs.length + 1 = (cs ++ [c]).length := by rw [List.length_append, List.length_singleton]
  have hbytes : byteCount (cs ++ [c]) = byteCount cs + 1 := by
    rw [← offsetAt_length (cs ++ [c]) [], ← hlength, List.append_nil, offsetAt_length_add, offsetAt, offsetAt_zero, hc]
  rw [← hbytes, List.append_cons, splitAt?_append]

theorem find?_append {cs ds : List Char} (hc : c ∉ cs) : find? c (cs ++ c :: ds) = some (byteCount cs) := by
  have hidx : (cs ++ c :: ds).idxOf c = cs.length := by
    rw [List.idxOf_append_of_notMem hc, List.idxOf_cons_self, Nat.add_zero]
  rw [find?, if_pos (by simp), hidx, offsetAt_length]

theorem find?_eq_none_iff {cs : List Char} : find? c cs = none ↔ c ∉ cs := by
  simp [find?]

/-! ## Bytes of digits -/

/-- A character of more than one byte starts with a byte that is no digit. -/
theorem utf8EncodeChar_eq_cons (c : Char) :
    ∃ b bs, String.utf8EncodeChar c = b :: bs ∧ isDigitByte b = c.isDigit := by
  have hdigit : c.isDigit = (decide (48 ≤ c.val.toNat) && decide (c.val.toNat ≤ 57)) := rfl
  rw [hdigit]
  unfold String.utf8EncodeChar isDigitByte
  generalize c.val.toNat = v
  -- what more than one byte is needed for starts with 192 at least
  have hlate {b : Nat} (hb : 192 ≤ b) (hb' : b < 256) (hv : 127 < v) :
      (decide (48 ≤ (UInt8.ofNat b).toNat) && decide ((UInt8.ofNat b).toNat ≤ 57)) =
        (decide (48 ≤ v) && decide (v ≤ 57)) := by
    rw [UInt8.toNat_ofNat_of_lt' hb', Bool.eq_iff_iff]
    simp only [Bool.and_eq_true, decide_eq_true_eq]
    omega
  simp only
  split
  · rename_i hv
    refine ⟨_, _, rfl, ?_⟩
    rw [UInt8.toNat_ofNat_of_lt' (Nat.lt_of_le_of_lt hv (by decide))]
  · split
    · exact ⟨_, _, rfl, hlate (by omega) (by omega) (by omega)⟩
    · split
      · exact ⟨_, _, rfl, hlate (by omega) (by omega) (by omega)⟩
      · exact ⟨_, _, rfl, hlate (by omega) (by omega) (by omega)⟩

theorem utf8Size_of_isDigit (hc : c.isDigit = true) : c.utf8Size = 1 := by
  rw [Char.utf8Size_eq_one_iff]
  have hle : c ≤ '9' := (Bool.and_eq_true_iff.mp hc).2 |> of_decide_eq_true
  exact Nat.le_trans hle (by decide)

theorem digitBytes_eq (cs : List Char) : digitBytes cs = byteCount (cs.takeWhile Char.isDigit) := by
  induction cs with
  | nil => rfl
  | cons c cs ih =>
    unfold digitBytes at ih ⊢
    obtain ⟨b, bs, hb, hdigit⟩ := utf8EncodeChar_eq_cons c
    by_cases hc : c.isDigit = true
    · have hsize := utf8Size_of_isDigit hc
      rw [← String.length_utf8EncodeChar, hb, List.length_cons, Nat.add_eq_right, List.length_eq_zero_iff] at hsize
      rw [List.flatMap_cons, hb, hsize, List.singleton_append, List.takeWhile_cons_of_pos (hdigit.trans hc),
        List.length_cons, ih, List.takeWhile_cons_of_pos hc, byteCount, utf8Size_of_isDigit hc, Nat.add_comm]
    · rw [List.flatMap_cons, hb, List.cons_append, List.takeWhile_cons_of_neg (by rw [hdigit]; exact hc),
        List.takeWhile_cons_of_neg hc]
      rfl

end Highlight.Text
