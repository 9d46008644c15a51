import Highlight.Highlighter.Tokenize
import Mathlib

/-!
# Results

What a chain of steps that may fail gives, and how a change of errors passes
through it.

Mathlib is imported whole once, here, for what builds on this: to evaluate a run unfolds
functions from all over it.
-/

namespace Highlight.Results

variable {α β γ ε ε' : Type}

theorem bind_eq_ok {x : Except ε α} {f : α → Except ε β} {b : β} :
    (x >>= f) = .ok b ↔ ∃ a, x = .ok a ∧ f a = .ok b := by
  cases x with
  | error e => simp [bind, Except.bind]
  | ok a => simp [bind, Except.bind]

theorem map_eq_ok {x : Except ε α} {f : α → β} {b : β} :
    x.map f = .ok b ↔ ∃ a, x = .ok a ∧ f a = b := by
  cases x with
  | error e => simp [Except.map]
  | ok a => simp [Except.map]

theorem map_eq_error {x : Except ε α} {f : α → β} {e : ε} :
    x.map f = .error e ↔ x = .error e := by
  cases x with
  | error e => simp [Except.map]
  | ok a => simp [Except.map]

theorem mapError_bind (x : Except ε α) (f : α → Except ε β) (g : ε → ε') :
    (x >>= f).mapError g = x.mapError g >>= fun a => (f a).mapError g := by
  cases x with
  | error e => rfl
  | ok a => rfl

theorem mapError_map (x : Except ε α) (f : α → β) (g : ε → ε') :
    (x.map f).mapError g = (x.mapError g).map f := by
  cases x with
  | error e => rfl
  | ok a => rfl

theorem mapError_eq_error {x : Except ε α} {g : ε → ε'} {e : ε'} :
    x.mapError g = .error e ↔ ∃ d, x = .error d ∧ g d = e := by
  cases x with
  | error d =>
    show Except.error (g d) = .error e ↔ _
    simp
  | ok a =>
    show Except.ok a = .error e ↔ _
    simp

theorem mapError_eq_ok {x : Except ε α} {g : ε → ε'} {a : α} : x.mapError g = .ok a ↔ x = .ok a := by
  cases x with
  | error d =>
    show Except.error (g d) = .ok a ↔ _
    simp
  | ok b =>
    show Except.ok b = .ok a ↔ _
    simp

theorem map_map (x : Except ε α) (f : α → β) (g : β → γ) : (x.map f).map g = x.map (g ∘ f) := by
  cases x with
  | error e => rfl
  | ok a => rfl

theorem map_bind (x : Except ε α) (f : α → Except ε β) (g : β → γ) : (x >>= f).map g = x >>= fun a => (f a).map g := by
  cases x with
  | error e => rfl
  | ok a => rfl

theorem bind_pure_eq_map (x : Except ε α) (f : α → β) : (x >>= fun a => pure (f a)) = x.map f := by
  cases x with
  | error e => rfl
  | ok a => rfl

/-! ## Faults -/

def fault? : Except ε α → Option ε
  | .error e => some e
  | .ok _ => none

def after (fault : Option ε) (x : Except ε α) : Except ε α :=
  match fault with
  | some e => .error e
  | none => x

theorem fault?_eq_some {x : Except ε α} {e : ε} : fault? x = some e ↔ x = .error e := by
  cases x with
  | error d => simp [fault?]
  | ok a => simp [fault?]

theorem fault?_eq_none {x : Except ε α} : fault? x = none ↔ ∃ a, x = .ok a := by
  cases x with
  | error d => simp [fault?]
  | ok a => simp [fault?]

theorem fault?_map (x : Except ε α) (f : α → β) : fault? (x.map f) = fault? x := by
  cases x with
  | error d => rfl
  | ok a => rfl

theorem fault?_after (fault : Option ε) (x : Except ε α) : fault? (after fault x) = fault.or (fault? x) := by
  cases fault with
  | some e => rfl
  | none => rfl

theorem map_after (fault : Option ε) (x : Except ε α) (f : α → β) :
    (after fault x).map f = after fault (x.map f) := by
  cases fault with
  | some e => rfl
  | none => rfl

/-! ## Lists -/

theorem exists_of_forall₂ {S : α → β → Prop} {l : List α} {l' : List β} (h : List.Forall₂ S l l') {b : β} (hb : b ∈ l') :
    ∃ a ∈ l, S a b := by
  induction h with
  | nil => cases hb
  | cons hab _ ih =>
    rcases List.mem_cons.mp hb with rfl | hb
    · exact ⟨_, List.mem_cons_self .., hab⟩
    · obtain ⟨a, ha, hab⟩ := ih hb
      exact ⟨a, List.mem_cons_of_mem _ ha, hab⟩

/-- Things found for each pair of members make a list between the lists. -/
theorem exists_between {R : α → β → Prop} {P : β → γ → Prop} {Q : α → γ → Prop} {l : List α} {l' : List β}
    (h : List.Forall₂ R l l') (hex : ∀ a ∈ l, ∀ b, R a b → ∃ c, P b c ∧ Q a c) :
    ∃ cs, List.Forall₂ P l' cs ∧ List.Forall₂ Q l cs := by
  induction h with
  | nil => exact ⟨[], .nil, .nil⟩
  | @cons a b l l' hab _ ih =>
    obtain ⟨c, hb, ha⟩ := hex a (List.mem_cons_self ..) b hab
    obtain ⟨cs, hl', hl⟩ := ih fun d hd => hex d (List.mem_cons_of_mem _ hd)
    exact ⟨c :: cs, .cons hb hl', .cons ha hl⟩

theorem forall₂_of_mapM {f : α → Except ε β} : ∀ {l : List α} {l' : List β}, l.mapM f = .ok l' →
    List.Forall₂ (fun a b => f a = .ok b) l l'
  | [], l', h => by
    cases h
    exact .nil
  | a :: l, l', h => by
    rw [List.mapM_cons] at h
    obtain ⟨b, hb, h⟩ := bind_eq_ok.mp h
    obtain ⟨bs, hbs, h⟩ := bind_eq_ok.mp h
    cases h
    exact .cons hb (forall₂_of_mapM hbs)

theorem forM_eq_ok {f : α → Except ε PUnit} : ∀ {l : List α}, (∀ a ∈ l, f a = .ok ⟨⟩) → l.forM f = .ok ⟨⟩
  | [], _ => rfl
  | a :: l, h => by
    show (f a >>= fun _ => l.forM f) = _
    rw [h a (List.mem_cons_self ..)]
    exact forM_eq_ok fun b hb => h b (List.mem_cons_of_mem _ hb)

theorem forM_eq_error {f : α → Except ε PUnit} {a : α} {after : List α} {e : ε} (ha : f a = .error e) :
    ∀ {before : List α}, (∀ b ∈ before, f b = .ok ⟨⟩) → (before ++ a :: after).forM f = .error e
  | [], _ => by
    show (f a >>= fun _ => after.forM f) = _
    rw [ha]
    rfl
  | b :: before, h => by
    show (f b >>= fun _ => (before ++ a :: after).forM f) = _
    rw [h b (List.mem_cons_self ..)]
    exact forM_eq_error ha fun c hc => h c (List.mem_cons_of_mem b hc)

/-- A list fails as the first of its members that fails. -/
theorem fault?_mapM (f : α → Except ε β) : ∀ l : List α, fault? (l.mapM f) = l.findSome? fun a => fault? (f a)
  | [] => rfl
  | a :: l => by
    rw [List.mapM_cons, List.findSome?_cons, ← fault?_mapM f l]
    cases f a with
    | error e => rfl
    | ok b =>
      cases l.mapM f with
      | error e => rfl
      | ok bs => rfl

theorem exists_mapM {f : α → Except ε β} {l : List α} (h : ∀ a ∈ l, ∃ b, f a = .ok b) : ∃ l', l.mapM f = .ok l' := by
  rw [← fault?_eq_none, fault?_mapM, List.findSome?_eq_none_iff]
  exact fun a ha => fault?_eq_none.mpr (h a ha)

theorem mapM_eq_error {f : α → Except ε β} {l : List α} {e : ε} : l.mapM f = .error e ↔
    ∃ before a after, l = before ++ a :: after ∧ f a = .error e ∧ ∀ b ∈ before, ∃ c, f b = .ok c := by
  rw [← fault?_eq_some, fault?_mapM, List.findSome?_eq_some_iff]
  simp only [fault?_eq_some, fault?_eq_none]

end Highlight.Results
