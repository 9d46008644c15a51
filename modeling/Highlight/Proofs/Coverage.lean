import Highlight.Proofs.PaintLaw
import Highlight.Proofs.Tiling

/-!
# Lines are painted to their end

Each step of a scan paints on from where the one before it stopped, and however
a scan ends, it paints the rest of its text. So a line that has been painted is
painted to its end, without a gap.
-/

namespace Highlight

/-- Painting on, with whatever scopes, leaves a line without a gap. -/
theorem Painting.painted_law (n : Nat) : Law (fun i p => p.Painted i ∧ p.length = n) fun _ => True where
  paint _ _ h := ⟨h.1.paint _ _, (length_paint ..).trans h.2⟩
  named _ _ _ := trivial

theorem State.over_true (s : State) : s.Over fun _ => True :=
  ⟨trivial, fun _ _ => trivial, fun _ _ => trivial, fun _ _ => trivial⟩

namespace Highlighter

variable {h : Highlighter}

theorem painted_paintLine {number : Nat} {l : List Char} {s : State} {e : State × Painting}
    (he : h.paintLine number l s = .ok e) : e.2.Painted (l.length + 1) ∧ e.2.length = l.length :=
  (keeps_paintLine (Painting.painted_law l.length) s.over_true ⟨Painting.painted_blank l.length, rfl⟩ he).2

theorem covered_paintLine {number : Nat} {l : List Char} {s : State} {e : State × Painting}
    (he : h.paintLine number l s = .ok e) : e.2.covered = l.length := by
  obtain ⟨hp, hlength⟩ := painted_paintLine he
  have h1 := hp.inside
  have h2 := hp.reached
  omega

theorem tiling_paintLine {number : Nat} {l : List Char} {s : State} {e : State × Painting}
    (he : h.paintLine number l s = .ok e) : Painting.Tiling e.2.stretches l.length :=
  covered_paintLine he ▸ (painted_paintLine he).1.tiled

end Highlighter

end Highlight
