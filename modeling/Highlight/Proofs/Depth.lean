import Highlight.Proofs.Endless

/-!
# The depth of captures

With captures tokenized again up to some depth, a highlighter either comes to that depth or does
what it does with any greater one. So the depth up to which a line is painted is as good as any
beyond it: a line that comes to it is without end.
-/

namespace Highlight

/-- The first outcome is the second one, unless it is that there is no end. -/
def Approaches {α : Type} (line : Nat) (x y : Except TokenizeError α) : Prop :=
  x = .error (.endless line) ∨ x = y

def Retokenize.Approaches (line : Nat) (again again' : Retokenize) : Prop :=
  ∀ text start s p, Highlight.Approaches line (again text start s p) (again' text start s p)

namespace Approaches

variable {α β : Type} {line : Nat} {x y z : Except TokenizeError α}

theorem refl (x : Except TokenizeError α) : Approaches line x x := .inr rfl

theorem trans (hxy : Approaches line x y) (hyz : Approaches line y z) : Approaches line x z := by
  rcases hxy with hx | rfl
  · exact .inl hx
  · exact hyz

theorem bind (hxy : Approaches line x y) {f f' : α → Except TokenizeError β} (hf : ∀ a, Approaches line (f a) (f' a)) :
    Approaches line (x >>= f) (y >>= f') := by
  rcases hxy with rfl | rfl
  · exact .inl rfl
  · cases x with
    | error e => exact refl _
    | ok a => exact hf a

theorem map (hxy : Approaches line x y) (f : α → β) : Approaches line (x.map f) (y.map f) := by
  rcases hxy with rfl | rfl
  · exact .inl rfl
  · exact refl _

end Approaches

variable {line : Nat} {again again' : Retokenize} (hagain : again.Approaches line again')

namespace Painting

variable (text : Array Char)
include hagain

theorem approaches_addSegment (p : Painting) (s : Segment) :
    Approaches line (p.addSegment again text s) (p.addSegment again' text s) := by
  unfold addSegment
  split
  · exact hagain _ _ _ _
  · exact .refl _

theorem approaches_addSegments : ∀ (segments : List Segment) (p : Painting),
    Approaches line (segments.foldlM (addSegment again text) p) (segments.foldlM (addSegment again' text) p)
  | [], _ => .refl _
  | s :: segments, p => by
    rw [List.foldlM_cons, List.foldlM_cons]
    exact (approaches_addSegment hagain text p s).bind fun q => approaches_addSegments segments q

theorem approaches_addMatch (p : Painting) (m : Match) (captures : List (Capture Nat)) (scopes : List String) :
    Approaches line (p.addMatch again text m captures scopes) (p.addMatch again' text m captures scopes) := by
  unfold addMatch
  split
  · exact .refl _
  · split
    · exact .refl _
    · exact approaches_addSegments hagain text _ p

end Painting

namespace Highlighter

variable (h : Highlighter) (text : Array Char)

section

include hagain

theorem approaches_step (start : Nat) (s : State) (p : Painting) :
    Approaches line (h.step line again text start s p) (h.step line again' text start s p) := by
  cases hn : h.next text start s with
  | none =>
    rw [step_of_next_eq_none h line again text p hn, step_of_next_eq_none h line again' text p hn]
    exact .refl _
  | some cm =>
    obtain ⟨c, m⟩ := cm
    rw [step_of_next_eq_some h line again text p hn, step_of_next_eq_some h line again' text p hn]
    split
    · exact .refl _
    · exact (Painting.approaches_addMatch hagain text _ m _ _).bind fun q => .refl _

theorem approaches_scan (start : Nat) (s : State) (p : Painting) :
    Approaches line (h.scan line again text start s p) (h.scan line again' text start s p) := by
  induction start, s, p using scan.induct h line again text with
  | case1 start s p e hs =>
    rw [scan_of_error hs]
    rcases approaches_step hagain h text start s p with he | he
    · rw [hs] at he
      cases he
      exact .inl rfl
    · rw [scan_of_error (he.symm.trans hs)]
      exact .refl _
  | case2 start s p s' p' hs =>
    rw [scan_of_done hs]
    rcases approaches_step hagain h text start s p with he | he
    · rw [hs] at he
      cases he
    · rw [scan_of_done (he.symm.trans hs)]
      exact .refl _
  | case3 start s p i s' p' hs ih =>
    rw [scan_of_next hs]
    rcases approaches_step hagain h text start s p with he | he
    · rw [hs] at he
      cases he
    · rw [scan_of_next (he.symm.trans hs)]
      exact ih

theorem approaches_checkConditions : ∀ (frames : List Frame) (start : Nat) (p : Painting),
    Approaches line (h.checkConditions again text start p frames) (h.checkConditions again' text start p frames)
  | [], _, _ => .refl _
  | f :: inner, start, p => by
    rw [checkConditions, checkConditions]
    split
    · exact (approaches_checkConditions inner start p).bind fun e => .refl _
    · split
      · exact .refl _
      · refine (Painting.approaches_addMatch hagain text p _ _ _).bind fun q => ?_
        exact (approaches_checkConditions inner _ q).bind fun e => .refl _

end

theorem approaches_scanWithin_succ : ∀ depth, (h.scanWithin line depth).Approaches line (h.scanWithin line (depth + 1))
  | 0 => fun _ _ _ _ => .inl rfl
  | depth + 1 => fun text start s p => (approaches_scan (approaches_scanWithin_succ depth) h text start s p).map _

theorem approaches_scanWithin {depth depth' : Nat} (hd : depth ≤ depth') :
    (h.scanWithin line depth).Approaches line (h.scanWithin line depth') := by
  induction hd with
  | refl => exact fun _ _ _ _ => .refl _
  | @step depth' _ ih => exact fun text start s p => (ih text start s p).trans (approaches_scanWithin_succ h depth' text start s p)

/-- A line is painted the same with any depth beyond the one that it is painted with. -/
theorem paintLineWithin_eq {depth : Nat} {l : List Char} {s : State}
    (hd : captureDepth h.grammar (l ++ [Text.lineEnd]).toArray.size ≤ depth) :
    h.paintLineWithin line depth l s = h.paintLine line l s := by
  have hagain : (h.scanWithin line _).Approaches line (h.scanWithin line _) := approaches_scanWithin h hd
  have happroaches : Approaches line (h.paintLine line l s) (h.paintLineWithin line depth l s) :=
    (approaches_checkConditions hagain h _ _ _ _).bind fun e => approaches_scan hagain h _ _ _ _
  rcases happroaches with he | he
  · rw [he, paintLineWithin_eq_endless hd]
    exact paintLine_eq_endless.mp he
  · exact he.symm

end Highlighter

end Highlight
