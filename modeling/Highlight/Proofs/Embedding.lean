import Highlight.Proofs.Depth
import Highlight.Proofs.Expansion
import Mathlib.Data.List.Basic

/-!
# Grammars within grammars

Rules are known by their numbers, and nothing but the rules that are looked up by them tells one
number from another. Nor does it matter how rules are listed, as long as the lists come to the
same candidates. So a grammar that has the rules of another one under its own numbers highlights
the same, whatever else it has. Each part of a highlighter gives in a state that is carried over
what it gave, carried over.
-/

namespace Highlight

/-! ## Lists with more in them -/

/-- The second list has something for each member of the first, in order, and more in between. -/
inductive Padded {α β : Type} (Extra : β → Prop) (R : α → β → Prop) : List α → List β → Prop
  | nil : Padded Extra R [] []
  | keep {a : α} {b : β} {l : List α} {l' : List β} : R a b → Padded Extra R l l' → Padded Extra R (a :: l) (b :: l')
  | extra {b : β} {l : List α} {l' : List β} : Extra b → Padded Extra R l l' → Padded Extra R l (b :: l')

namespace Padded

variable {α β γ δ : Type} {Extra : β → Prop} {R : α → β → Prop} {l m : List α} {l' m' : List β}

theorem append (h : Padded Extra R l l') (hm : Padded Extra R m m') : Padded Extra R (l ++ m) (l' ++ m') := by
  induction h with
  | nil => exact hm
  | keep hab _ ih => exact .keep hab ih
  | extra hb _ ih => exact .extra hb ih

theorem of_map (f : α → β) : ∀ l : List α, Padded Extra (fun a b => b = f a) l (l.map f)
  | [] => .nil
  | _ :: l => .keep rfl (of_map f l)

theorem of_forall₂ (h : List.Forall₂ R l l') : Padded Extra R l l' := by
  induction h with
  | nil => exact .nil
  | cons hab _ ih => exact .keep hab ih

theorem imp_extra {Extra' : β → Prop} (h : Padded Extra R l l') (hextra : ∀ b, Extra b → Extra' b) :
    Padded Extra' R l l' := by
  induction h with
  | nil => exact .nil
  | keep hab _ ih => exact .keep hab ih
  | extra hb _ ih => exact .extra (hextra _ hb) ih

theorem map {Extra' : δ → Prop} {R' : γ → δ → Prop} {f : α → γ} {f' : β → δ} (h : Padded Extra R l l')
    (hR : ∀ a ∈ l, ∀ b ∈ l', R a b → R' (f a) (f' b)) (hextra : ∀ b ∈ l', Extra b → Extra' (f' b)) :
    Padded Extra' R' (l.map f) (l'.map f') := by
  induction h with
  | nil => exact .nil
  | keep hab _ ih =>
    refine .keep (hR _ (by simp) _ (by simp) hab) (ih ?_ ?_)
    · intro a ha b hb
      exact hR a (List.mem_cons_of_mem _ ha) b (List.mem_cons_of_mem _ hb)
    · intro b hb
      exact hextra b (List.mem_cons_of_mem _ hb)
  | extra hb _ ih =>
    refine .extra (hextra _ (by simp) hb) (ih ?_ ?_)
    · intro a ha b hb
      exact hR a ha b (List.mem_cons_of_mem _ hb)
    · intro b hb
      exact hextra b (List.mem_cons_of_mem _ hb)

theorem exists_right (h : Padded Extra R l l') {a : α} (ha : a ∈ l) : ∃ b ∈ l', R a b := by
  induction h with
  | nil => cases ha
  | keep hab _ ih =>
    rcases List.mem_cons.mp ha with rfl | ha
    · exact ⟨_, List.mem_cons_self .., hab⟩
    · obtain ⟨b, hb, hab⟩ := ih ha
      exact ⟨b, List.mem_cons_of_mem _ hb, hab⟩
  | extra _ _ ih =>
    obtain ⟨b, hb, hab⟩ := ih ha
    exact ⟨b, List.mem_cons_of_mem _ hb, hab⟩

theorem extra_or_exists_left (h : Padded Extra R l l') {b : β} (hb : b ∈ l') : Extra b ∨ ∃ a ∈ l, R a b := by
  induction h with
  | nil => cases hb
  | keep hab _ ih =>
    rcases List.mem_cons.mp hb with rfl | hb
    · exact .inr ⟨_, List.mem_cons_self .., hab⟩
    · exact (ih hb).imp_right fun ⟨a, ha, hab⟩ => ⟨a, List.mem_cons_of_mem _ ha, hab⟩
  | extra hextra _ ih =>
    rcases List.mem_cons.mp hb with rfl | hb
    · exact .inl hextra
    · exact ih hb

theorem length_le (h : Padded Extra R l l') : l.length ≤ l'.length := by
  induction h with
  | nil => exact Nat.le_refl _
  | keep _ _ ih => exact Nat.succ_le_succ ih
  | extra _ _ ih => exact Nat.le_succ_of_le ih

/-- What is found is found among the members that both lists have. -/
theorem findSome?_eq {f : α → Option γ} {f' : β → Option γ} (h : Padded Extra R l l') (hR : ∀ a b, R a b → f' b = f a)
    (hextra : ∀ b, Extra b → f' b = none) : l'.findSome? f' = l.findSome? f := by
  induction h with
  | nil => rfl
  | keep hab _ ih => rw [List.findSome?_cons, List.findSome?_cons, hR _ _ hab, ih]
  | extra hb _ ih => rw [List.findSome?_cons, hextra _ hb, ih]

/-- Some of what one function leaves out the other one may give. -/
theorem of_filterMap {S : α → β → Prop} {Extra' : δ → Prop} {R' : γ → δ → Prop} {f : α → Option γ} {f' : β → Option δ}
    (h : List.Forall₂ S l l')
    (hf : ∀ a ∈ l, ∀ b, S a b → Option.Rel R' (f a) (f' b) ∨ f a = none ∧ ∃ d, f' b = some d ∧ Extra' d) :
    Padded Extra' R' (l.filterMap f) (l'.filterMap f') := by
  induction h with
  | nil => exact .nil
  | @cons a b l l' hab _ ih =>
    have hrest := ih fun a ha => hf a (List.mem_cons_of_mem _ ha)
    rw [List.filterMap_cons, List.filterMap_cons]
    rcases hf a (List.mem_cons_self ..) b hab with hrel | ⟨hnone, d, hd, hextra⟩
    · cases hfa : f a with
      | none =>
        rw [hfa] at hrel
        generalize f' b = y at hrel
        cases hrel
        exact hrest
      | some c =>
        rw [hfa] at hrel
        generalize f' b = y at hrel
        cases hrel with
        | some hcd => exact .keep hcd hrest
    · rw [hnone, hd]
      exact .extra hextra hrest

end Padded

/-! ## Candidates -/

structure Placement where
  number : Nat → Nat
  inside : Nat → List Nat

def Region.carry {ι κ π : Type} (f : ι → κ) (inside : List κ) (r : Region ι π) : Region κ π where
  name := r.name
  contentName := r.contentName
  opening := r.opening
  openingCaptures := r.openingCaptures.map (·.renumber f)
  closing := r.closing
  closingCaptures := r.closingCaptures.map (·.renumber f)
  patterns := inside
  lasting := r.lasting

def Rule.carry {ι κ π : Type} (f : ι → κ) (inside : List κ) : Rule ι π → Rule κ π
  | container _ => container inside
  | piece name p cs => piece name p (cs.map (·.renumber f))
  | region r => region (r.carry f inside)

theorem Rule.isContainer_carry {ι κ π : Type} (f : ι → κ) (inside : List κ) (r : Rule ι π) :
    (r.carry f inside).isContainer = r.isContainer := by
  cases r <;> rfl

theorem Rule.patterns_renumber {ι κ π : Type} (f : ι → κ) (r : Rule ι π) : (r.renumber f).patterns = r.patterns.map f := by
  cases r <;> rfl

section

variable {π : Type} {rules rules' : Array (Rule Nat π)} {id : Nat} {ids ids' seen seen' : List Nat}

structure Placement.Holds (P : Placement) (Mute : Nat → Prop) (rules rules' : Array (Rule Nat π)) : Prop where
  apart : Function.Injective P.number
  placed : ∀ i, rules'[P.number i]? = rules[i]?.map (·.carry P.number (P.inside i))
  inside : ∀ (i : Nat) (r : Rule Nat π), rules[i]? = some r →
    Padded Mute (fun i j => j = P.number i) r.patterns (r.carry P.number (P.inside i)).patterns
  ne_mute : ∀ i, ¬Mute (P.number i)
  mute : ∀ (j : Nat) (r : Rule Nat π), Mute j → rules'[j]? = some r → r = .container []

/-- Both lists of candidates are expanded in the same steps, but for those that come to nothing. -/
theorem Placement.Holds.expand_padded {P : Placement} {Mute : Nat → Prop} (h : P.Holds Mute rules rules')
    (hids : Padded Mute (fun i j => j = P.number i) ids ids') (hseen : ∀ i, P.number i ∈ seen' ↔ i ∈ seen) :
    expand rules' ids' seen' = (expand rules ids seen).map P.number := by
  have hseen_cons {seen seen' : List Nat} (hseen : ∀ i, P.number i ∈ seen' ↔ i ∈ seen) (k i : Nat) :
      P.number i ∈ P.number k :: seen' ↔ i ∈ k :: seen := by
    rw [List.mem_cons, List.mem_cons, hseen, h.apart.eq_iff]
  have hseen_mute {seen seen' : List Nat} (hseen : ∀ i, P.number i ∈ seen' ↔ i ∈ seen) {j : Nat} (hj : Mute j) (i : Nat) :
      P.number i ∈ j :: seen' ↔ i ∈ seen := by
    have hne : P.number i ≠ j := fun he => h.ne_mute i (he ▸ hj)
    rw [List.mem_cons, hseen, or_iff_right hne]
  induction ids', seen' using expand.induct rules' generalizing ids seen with
  | case1 seen' =>
    cases hids
    rw [expand, expand]
    rfl
  | case2 seen' j ids' hj ih =>
    rw [expand_of_mem hj]
    cases hids with
    | @keep i _ ids _ hij hrest =>
      rw [expand_of_mem ((hseen i).mp (hij ▸ hj)), ih hrest hseen]
    | extra _ hrest => exact ih hrest hseen
  | case3 seen' j ids' hj hr ih =>
    rw [expand_of_none hj hr]
    cases hids with
    | @keep i _ ids _ hij hrest =>
      subst hij
      have hi : i ∉ seen := mt (hseen i).mpr hj
      rw [h.placed, Option.map_eq_none_iff] at hr
      rw [expand_of_none hi hr, ih hrest (hseen_cons hseen i)]
    | extra hmute hrest => exact ih hrest (hseen_mute hseen hmute)
  | case4 seen' j ids' hj inner hr ih =>
    rw [expand_of_container hj hr]
    cases hids with
    | @keep i _ ids _ hij hrest =>
      subst hij
      have hi : i ∉ seen := mt (hseen i).mpr hj
      rw [h.placed, Option.map_eq_some_iff] at hr
      obtain ⟨r, hr, hcarry⟩ := hr
      have hc : r.isContainer = true := by rw [← Rule.isContainer_carry, hcarry]; rfl
      obtain ⟨ps, rfl⟩ := Rule.isContainer_iff.mp hc
      cases hcarry
      have hinside : Padded Mute (fun i j => j = P.number i) ps (P.inside i) := h.inside i _ hr
      rw [expand_of_container hi hr, ih (hinside.append hrest) (hseen_cons hseen i)]
    | extra hmute hrest =>
      cases h.mute j _ hmute hr
      exact ih hrest (hseen_mute hseen hmute)
  | case5 seen' j ids' hj r' hne hr ih =>
    have hc : ¬r'.isContainer = true := fun h => by
      obtain ⟨inner, rfl⟩ := Rule.isContainer_iff.mp h
      exact hne _ rfl
    rw [expand_of_some hj hr hc]
    cases hids with
    | @keep i _ ids _ hij hrest =>
      subst hij
      have hi : i ∉ seen := mt (hseen i).mpr hj
      rw [h.placed, Option.map_eq_some_iff] at hr
      obtain ⟨r, hr, rfl⟩ := hr
      rw [Rule.isContainer_carry] at hc
      rw [expand_of_some hi hr hc, ih hrest (hseen_cons hseen i), List.map_cons]
    | extra hmute _ => exact absurd (h.mute j _ hmute hr) (hne [])

end

namespace Grammar

/-- The second grammar has the rules of the first one under numbers of its own, and may have
more. What may start inside them is the same. -/
structure Embeds (P : Placement) (G G' : Grammar) : Prop where
  scopeName : G'.scopeName = G.scopeName
  size : G.rules.size ≤ G'.rules.size
  root : P.number 0 = 0
  apart : Function.Injective P.number
  rules : ∀ i, G'.rules[P.number i]? = G.rules[i]?.map (·.carry P.number (P.inside i))
  candidates : ∀ i, G'.candidatesIn (P.number i) = (G.candidatesIn i).map P.number

/-- What the lists come to is told by the rules. -/
theorem Embeds.of_holds {P : Placement} {Mute : Nat → Prop} {G G' : Grammar} (hscope : G'.scopeName = G.scopeName)
    (hsize : G.rules.size ≤ G'.rules.size) (hroot : P.number 0 = 0) (h : P.Holds Mute G.rules G'.rules) :
    Embeds P G G' where
  scopeName := hscope
  size := hsize
  root := hroot
  apart := h.apart
  rules := h.placed
  candidates i := by
    unfold candidatesIn
    rw [G.candidates_eq, G'.candidates_eq, Array.getElem?_map, Array.getElem?_map, h.placed]
    cases hr : G.rules[i]? with
    | none => rfl
    | some r => exact h.expand_padded (h.inside i r hr) fun _ => by simp

end Grammar

/-! ## States carried over -/

def Frame.carry (P : Placement) (frame : Frame) : Frame :=
  { frame with rule := P.number frame.rule, region := frame.region.carry P.number (P.inside frame.rule) }

def State.carry (P : Placement) (s : State) : State :=
  { s with base := P.number s.base, frames := s.frames.map (·.carry P) }

def Choice.carry (P : Placement) : Choice → Choice
  | leave frame below => leave (frame.carry P) (below.map (·.carry P))
  | piece name captures => piece name (captures.map (·.renumber P.number))
  | enter id r => enter (P.number id) (r.carry P.number (P.inside id))

def Progress.carry (P : Placement) : Progress → Progress
  | done s p => done (s.carry P) p
  | next i s p => next i (s.carry P) p

def Active.renumber (f : Nat → Nat) (a : Active) : Active :=
  ⟨a.span, a.capture.renumber f⟩

def Segment.renumber (f : Nat → Nat) (s : Segment) : Segment :=
  { s with again := s.again.map f }

def Retokenize.Carries (P : Placement) (again again' : Retokenize) : Prop :=
  ∀ text start s p, again' text start (s.carry P) p = again text start s p

namespace State

variable (P : Placement) (s : State)

theorem scopes_carry : (s.carry P).scopes = s.scopes := by
  unfold scopes carry
  cases s.frames with
  | nil => rfl
  | cons frame below => rfl

theorem rule_carry : (s.carry P).rule = P.number s.rule := by
  unfold rule carry
  cases s.frames with
  | nil => rfl
  | cons frame below => rfl

theorem openedAt_carry (i : Nat) : (s.carry P).openedAt i = (s.openedAt i).map P.number := by
  unfold openedAt carry
  rw [List.takeWhile_map, List.map_map, List.map_map]
  rfl

end State

/-! ## Choices -/

section

variable {P : Placement} {G G' : Grammar} (hG : Grammar.Embeds P G G')
include hG

theorem starts_carry (s : State) :
    (s.carry P).starts G' = (s.starts G).map fun c => (c.1.carry P, c.2) := by
  unfold State.starts
  rw [State.rule_carry, hG.candidates, List.filterMap_map, List.map_filterMap]
  congr 1
  funext id
  rw [Function.comp, hG.rules]
  cases G.rules[id]? with
  | none => rfl
  | some rule => cases rule <;> rfl

theorem choices_carry (s : State) :
    (s.carry P).choices G' = (s.choices G).map fun c => (c.1.carry P, c.2) := by
  have hstarts := starts_carry hG s
  unfold State.choices
  cases hs : s.frames with
  | nil =>
    simp only [State.carry, hs, List.map_nil] at hstarts ⊢
    exact hstarts
  | cons frame below =>
    simp only [State.carry, hs, List.map_cons] at hstarts ⊢
    have hlasting : (frame.carry P).region.lasting = frame.region.lasting := rfl
    rw [hlasting]
    cases frame.region.lasting with
    | untilClosed closingLast =>
      cases closingLast with
      | false =>
        simp only [hstarts, List.map_cons]
        rfl
      | true =>
        simp only [hstarts, List.map_append]
        rfl
    | whileHolds => exact hstarts

theorem next_carry (m : Engine) (text : Array Char) (start : Nat) (s : State) :
    Highlighter.next ⟨G', m⟩ text start (s.carry P) =
      (Highlighter.next ⟨G, m⟩ text start s).map fun cm => (cm.1.carry P, cm.2) := by
  unfold Highlighter.next
  rw [← firstFrom_map]
  simp only [choices_carry hG]
  congr 1
  funext i
  unfold Highlighter.choiceAt
  rw [List.findSome?_map, List.map_findSome?]
  congr 1
  funext ⟨c, p⟩
  show (m.matchAt p text start i).map (c.carry P, ·) =
    ((m.matchAt p text start i).map (c, ·)).map fun cm => (cm.1.carry P, cm.2)
  rw [Option.map_map]
  rfl

end

/-! ## Painting -/

namespace Active

variable (f : Nat → Nat)

theorem shadows_renumber (actives : List Active) (s : Span) :
    shadows (actives.map (·.renumber f)) s = shadows actives s := by
  unfold shadows
  rw [List.any_map]
  congr 1
  funext a
  simp [renumber, Capture.renumber]

theorem collect_renumber (m : Match) : ∀ (captures : List (Capture Nat)) (found : List Active),
    collect m (found.map (·.renumber f)) (captures.map (·.renumber f)) = (collect m found captures).map (·.renumber f)
  | [], _ => rfl
  | c :: cs, found => by
    rw [List.map_cons, collect, collect]
    have hgroup : (c.renumber f).group = c.group := rfl
    rw [hgroup]
    cases span? m c.group with
    | none => exact collect_renumber m cs found
    | some s =>
      simp only [shadows_renumber]
      rw [← collect_renumber m cs]
      by_cases hs : shadows found s = true
      · rw [if_pos hs, if_pos hs]
      · rw [if_neg hs, if_neg hs, List.map_append]
        rfl

theorem ofMatch_renumber (m : Match) (captures : List (Capture Nat)) :
    ofMatch m (captures.map (·.renumber f)) = (ofMatch m captures).map (·.renumber f) :=
  collect_renumber f m captures []

end Active

namespace Segment

variable (f : Nat → Nat)

theorem bounds_renumber (whole : Span) (actives : List Active) :
    bounds whole (actives.map (·.renumber f)) = bounds whole actives := by
  unfold bounds
  rw [List.flatMap_map]
  rfl

theorem between_renumber (actives : List Active) (scopes : List String) (groups : List (Option String)) (s : Span) :
    between (actives.map (·.renumber f)) scopes groups s = (between actives scopes groups s).renumber f := by
  unfold between renumber
  have hfilter : (actives.map (·.renumber f)).filter (fun a => a.span.contains s) =
      (actives.filter fun a => a.span.contains s).map (·.renumber f) := by
    rw [List.filter_map]
    rfl
  simp only [hfilter, List.flatMap_map, List.filterMap_map, ← List.getLast?_map, List.map_filterMap]
  rfl

theorem ofMatch_renumber (text : Array Char) (m : Match) (captures : List (Capture Nat)) (scopes : List String) :
    ofMatch text m (captures.map (·.renumber f)) scopes = (ofMatch text m captures scopes).map (·.renumber f) := by
  unfold ofMatch
  simp only [Active.ofMatch_renumber, bounds_renumber, between_renumber, List.map_map]
  rfl

end Segment

namespace Painting

variable {P : Placement} {again again' : Retokenize} (hagain : again.Carries P again') (text : Array Char)
include hagain

theorem addSegment_carry (p : Painting) (s : Segment) :
    p.addSegment again' text (s.renumber P.number) = p.addSegment again text s := by
  obtain ⟨span, scopes, next⟩ := s
  cases next with
  | none => rfl
  | some rule => exact hagain _ _ (.start rule scopes) p

theorem addSegments_carry : ∀ (segments : List Segment) (p : Painting),
    (segments.map (·.renumber P.number)).foldlM (addSegment again' text) p = segments.foldlM (addSegment again text) p
  | [], _ => rfl
  | s :: segments, p => by
    rw [List.map_cons, List.foldlM_cons, List.foldlM_cons, addSegment_carry hagain]
    congr 1
    funext q
    exact addSegments_carry segments q

theorem addMatch_carry (p : Painting) (m : Match) (captures : List (Capture Nat)) (scopes : List String) :
    p.addMatch again' text m (captures.map (·.renumber P.number)) scopes = p.addMatch again text m captures scopes := by
  unfold addMatch
  rw [List.isEmpty_map, Segment.ofMatch_renumber, addSegments_carry hagain]

end Painting

theorem painted?_carry {P : Placement} (hP : Function.Injective P.number) (s : State) (text : Array Char) (start : Nat) (m : Match) (c : Choice) :
    (s.carry P).painted? text start m (c.carry P) =
      (s.painted? text start m c).map fun x => (x.1.map (·.renumber P.number), x.2) := by
  cases c with
  | leave frame below => rfl
  | piece name captures =>
    rw [Choice.carry, State.painted?, State.painted?, State.scopes_carry]
    rfl
  | enter id r =>
    have hopened : P.number id ∈ (s.carry P).openedAt start ↔ id ∈ s.openedAt start := by
      rw [State.openedAt_carry, List.mem_map_of_injective hP]
    rw [Choice.carry, State.painted?, State.painted?, State.scopes_carry]
    by_cases hl : m.span.stop = start ∧ id ∈ s.openedAt start
    · rw [if_pos hl, if_pos (hl.imp_right hopened.mpr)]
      rfl
    · rw [if_neg hl, if_neg (mt (And.imp_right hopened.mp) hl)]
      rfl

/-! ## Steps and runs -/

theorem settle_carry (G G' : Grammar) (m : Engine) (P : Placement) (line : Nat) (text : Array Char) (start : Nat) (s : State)
    (found : Match) (p : Painting) (c : Choice) :
    Highlighter.settle ⟨G', m⟩ line text start (s.carry P) found p (c.carry P) =
      (Highlighter.settle ⟨G, m⟩ line text start s found p c).map (·.carry P) := by
  cases c with
  | leave frame below =>
    have hstate : { s.carry P with frames := below.map (·.carry P) } = ({ s with frames := below } : State).carry P := rfl
    simp only [Choice.carry, Highlighter.settle, hstate, State.scopes_carry]
    have hentered : (frame.carry P).enteredAt = frame.enteredAt := rfl
    rw [hentered]
    by_cases hl : found.span.stop ≤ start ∧ frame.enteredAt = some start
    · rw [if_pos hl, if_pos hl]
      rfl
    · rw [if_neg hl, if_neg hl]
      rfl
  | piece name captures =>
    simp only [Choice.carry, Highlighter.settle, State.scopes_carry]
    by_cases hl : found.span.stop ≤ start
    · rw [if_pos hl, if_pos hl]
      rfl
    · rw [if_neg hl, if_neg hl]
      rfl
  | enter id r =>
    have hclosing : (r.carry P.number (P.inside id)).closing = r.closing := rfl
    simp only [Choice.carry, Highlighter.settle, hclosing, Results.map_map]
    congr 1
    funext closing
    simp only [Function.comp, Progress.carry, State.opened, State.scopes_carry]
    rfl

theorem checkConditions_carry (G G' : Grammar) (m : Engine) {P : Placement} {again again' : Retokenize}
    (hagain : again.Carries P again') (text : Array Char) : ∀ (frames : List Frame) (start : Nat) (p : Painting),
    Highlighter.checkConditions ⟨G', m⟩ again' text start p (frames.map (·.carry P)) =
      (Highlighter.checkConditions ⟨G, m⟩ again text start p frames).map fun e => (e.1.map (·.carry P), e.2)
  | [], _, _ => rfl
  | frame :: inner, start, p => by
    have hlasting : (frame.carry P).region.lasting = frame.region.lasting := rfl
    have hclosing : (frame.carry P).closing = frame.closing := rfl
    rw [List.map_cons, Highlighter.checkConditions, Highlighter.checkConditions, hlasting, hclosing]
    cases frame.region.lasting with
    | untilClosed closingLast =>
      simp only [checkConditions_carry G G' m hagain text inner]
      cases Highlighter.checkConditions ⟨G, m⟩ again text start p inner with
      | error e => rfl
      | ok e => rfl
    | whileHolds =>
      simp only
      cases m.matchAt frame.closing text start start with
      | none => rfl
      | some found =>
        have hpaint : p.addMatch again' text found (frame.carry P).region.closingCaptures (frame.carry P).named =
            p.addMatch again text found frame.region.closingCaptures frame.named :=
          Painting.addMatch_carry hagain text p found frame.region.closingCaptures frame.named
        simp only [hpaint, checkConditions_carry G G' m hagain text inner]
        cases p.addMatch again text found frame.region.closingCaptures frame.named with
        | error e => rfl
        | ok q =>
          simp only [bind, Except.bind]
          cases Highlighter.checkConditions ⟨G, m⟩ again text found.span.stop q inner with
          | error e => rfl
          | ok e => rfl

section

variable {P : Placement} {G G' : Grammar} (hG : Grammar.Embeds P G G') (m : Engine) (line : Nat)
  {again again' : Retokenize} (hagain : again.Carries P again') (text : Array Char)
include hG hagain

theorem step_carry (start : Nat) (s : State) (p : Painting) :
    Highlighter.step ⟨G', m⟩ line again' text start (s.carry P) p =
      (Highlighter.step ⟨G, m⟩ line again text start s p).map (·.carry P) := by
  have hnext := next_carry hG m text start s
  cases hn : Highlighter.next ⟨G, m⟩ text start s with
  | none =>
    rw [hn] at hnext
    rw [Highlighter.step_of_next_eq_none _ line again' text p hnext, Highlighter.step_of_next_eq_none _ line again text p hn,
      State.scopes_carry]
    rfl
  | some cm =>
    obtain ⟨c, found⟩ := cm
    rw [hn] at hnext
    rw [Highlighter.step_of_next_eq_some _ line again' text p hnext, Highlighter.step_of_next_eq_some _ line again text p hn,
      painted?_carry hG.apart, State.scopes_carry]
    cases s.painted? text start found c with
    | none => rfl
    | some painted =>
      obtain ⟨captures, scopes⟩ := painted
      simp only [Option.map_some, Painting.addMatch_carry hagain, settle_carry G G' m]
      cases Painting.addMatch again text found captures scopes (p.paint start found.span.start s.scopes) with
      | error e => rfl
      | ok q => rfl

theorem scan_carry (start : Nat) (s : State) (p : Painting) :
    Highlighter.scan ⟨G', m⟩ line again' text start (s.carry P) p =
      (Highlighter.scan ⟨G, m⟩ line again text start s p).map fun e => (e.1.carry P, e.2) := by
  induction start, s, p using Highlighter.scan.induct ⟨G, m⟩ line again text with
  | case1 start s p e hs =>
    have hs' := step_carry hG m line hagain text start s p
    rw [hs] at hs'
    rw [Highlighter.scan_of_error hs, Highlighter.scan_of_error hs']
    rfl
  | case2 start s p s' p' hs =>
    have hs' := step_carry hG m line hagain text start s p
    rw [hs] at hs'
    rw [Highlighter.scan_of_done hs, Highlighter.scan_of_done hs']
    rfl
  | case3 start s p i s' p' hs ih =>
    have hs' := step_carry hG m line hagain text start s p
    rw [hs] at hs'
    rw [Highlighter.scan_of_next hs, Highlighter.scan_of_next hs', ih]

end

section

variable {P : Placement} {G G' : Grammar} (hG : Grammar.Embeds P G G') (m : Engine)
include hG

theorem scanWithin_carry (line : Nat) : ∀ depth,
    (Highlighter.scanWithin ⟨G, m⟩ line depth).Carries P (Highlighter.scanWithin ⟨G', m⟩ line depth)
  | 0 => fun _ _ _ _ => rfl
  | depth + 1 => fun text start s p => by
    rw [Highlighter.scanWithin, Highlighter.scanWithin,
      scan_carry hG m line (scanWithin_carry line depth) text start s p, Results.map_map]
    rfl

theorem paintLineWithin_carry (number depth : Nat) (line : List Char) (s : State) :
    Highlighter.paintLineWithin ⟨G', m⟩ number depth line (s.carry P) =
      (Highlighter.paintLineWithin ⟨G, m⟩ number depth line s).map fun e => (e.1.carry P, e.2) := by
  have hframes : (s.carry P).atLineStart.frames.reverse = s.atLineStart.frames.reverse.map (·.carry P) := by
    simp only [State.atLineStart, State.carry, List.map_map, ← List.map_reverse]
    rfl
  have hagain := scanWithin_carry hG m number depth
  unfold Highlighter.paintLineWithin
  simp only [hframes, checkConditions_carry G G' m hagain]
  cases Highlighter.checkConditions ⟨G, m⟩ _ _ 0 (.blank line.length) s.atLineStart.frames.reverse with
  | error e => rfl
  | ok e =>
    simp only [bind, Except.bind, Except.map, ← List.map_reverse]
    exact scan_carry hG m number hagain _ _ { s.atLineStart with frames := e.1.reverse } _

theorem paintLine_carry (number : Nat) (line : List Char) (s : State) :
    Highlighter.paintLine ⟨G', m⟩ number line (s.carry P) =
      (Highlighter.paintLine ⟨G, m⟩ number line s).map fun e => (e.1.carry P, e.2) := by
  -- captures may go deeper where there are more rules, but need not
  have hdepth : Highlighter.captureDepth G (line ++ [Text.lineEnd]).toArray.size ≤
      Highlighter.captureDepth G' (line ++ [Text.lineEnd]).toArray.size := by
    unfold Highlighter.captureDepth
    exact Nat.succ_le_succ (Nat.mul_le_mul_left _ (Nat.succ_le_succ hG.size))
  rw [Highlighter.paintLine_eq, paintLineWithin_carry hG, Highlighter.paintLineWithin_eq ⟨G, m⟩ hdepth]

theorem tokenizeLines_carry (explain : Bool) (lines : List (List Char)) (number offset : Nat) (s : State) :
    Highlighter.tokenizeLines ⟨G', m⟩ explain number offset (s.carry P) lines =
      Highlighter.tokenizeLines ⟨G, m⟩ explain number offset s lines := by
  induction lines generalizing number offset s with
  | nil => rfl
  | cons line rest ih =>
    rw [Highlighter.tokenizeLines, Highlighter.tokenizeLines, paintLine_carry hG m]
    cases Highlighter.paintLine ⟨G, m⟩ number line s with
    | error e => simp only [Except.map, bind, Except.bind]
    | ok e => simp only [Except.map, bind, Except.bind, ih]

/-- A grammar that has the rules of another one highlights the same. -/
theorem tokenize_of_embeds (text : String) (explain : Bool) :
    Highlighter.tokenize ⟨G', m⟩ text explain = Highlighter.tokenize ⟨G, m⟩ text explain := by
  have hstart : State.start 0 [G'.scopeName] = (State.start 0 [G.scopeName]).carry P := by
    simp only [State.carry, State.start, hG.root, hG.scopeName, List.map_nil]
  unfold Highlighter.tokenize
  simp only [hstart, tokenizeLines_carry hG m explain]

end

end Highlight
