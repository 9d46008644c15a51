import Highlight.Proofs.JsonScalars
import Mathlib.Data.List.Forall2

/-!
# The texts of JSON values

Brackets hold items with commas between them and blanks about them. From readings of the
items, whatever follows each, comes a reading of the whole: the reader is back in step after
every item, since a value ends where a blank, a comma or a bracket can come.
-/

namespace Highlight.Json

/-! ## Texts -/

inductive Listed : List (List Char) → List Char → Prop
  | none {a : List Char} : Blank a → Listed [] a
  | one {a b t : List Char} : Blank a → Blank b → Listed [t] (a ++ (t ++ b))
  | more {a b t t' u : List Char} {ts : List (List Char)} : Blank a → Blank b → Listed (t' :: ts) u →
    Listed (t :: t' :: ts) (a ++ (t ++ (b ++ ',' :: u)))

inductive PairText (k u : List Char) : List Char → Prop
  | mk {a b : List Char} : Blank a → Blank b → PairText k u ('"' :: (k ++ '"' :: (a ++ ':' :: (b ++ u))))

/-- Any JSON, of whatever shape, depth and range. -/
inductive WellFormed : List Char → Prop
  | null : WellFormed ['n', 'u', 'l', 'l']
  | true : WellFormed ['t', 'r', 'u', 'e']
  | false : WellFormed ['f', 'a', 'l', 's', 'e']
  | number {t : List Char} : NumberText t → WellFormed t
  | string {t : List Char} : StringText t → WellFormed ('"' :: (t ++ ['"']))
  | array {ts : List (List Char)} {u : List Char} : (∀ t ∈ ts, WellFormed t) → Listed ts u →
    WellFormed ('[' :: (u ++ [']']))
  | object {ms : List (List Char × List Char)} {ts : List (List Char)} {u : List Char} :
    (∀ m ∈ ms, StringText m.1) → (∀ m ∈ ms, WellFormed m.2) →
    List.Forall₂ (fun m t => PairText m.1 m.2 t) ms ts → Listed ts u → WellFormed ('{' :: (u ++ ['}']))

/-! ## Outcomes -/

def Reading.outcome {α : Type} {n : Nat} (r : Reading α n) : α × Option (List Char) :=
  (r.value, r.rest.map Subtype.val)

theorem outcome_value (cs : List Char) : (value cs).outcome =
    match skipSpace cs with
    | '[' :: rest => let r := (items true rest).outcome; (.array r.1.1 r.1.2, r.2)
    | '{' :: rest => let r := (members true rest).outcome; (.object r.1.1 r.1.2, r.2)
    | start => scalar start := by
  rw [value]
  split
  · rename_i h
    simp only [h, Reading.outcome, Option.map_map]
    rfl
  · rename_i h
    simp only [h, Reading.outcome, Option.map_map]
    rfl
  · rename_i hbracket hbrace
    simp only [Reading.outcome, Option.map_pmap, Option.pmap_eq_map, Option.map_id']

theorem outcome_items (first : Bool) (cs : List Char) : (items first cs).outcome =
    match skipSpace cs with
    | [] => (([], if first then .broken .truncated else .afterComma .truncated), none)
    | c :: rest =>
      if c = ']' then if first then (([], .closed), some rest) else (([], .afterComma .malformed), none)
      else match (value cs).outcome with
        | (v, none) => (([v], .closed), none)
        | (v, some tail) =>
          match skipSpace tail with
          | ',' :: tail => let r := (items false tail).outcome; ((v :: r.1.1, r.1.2), r.2)
          | ']' :: tail => (([v], .closed), some tail)
          | tail => (([v], .broken (.before tail)), none) := by
  rw [items]
  split
  · rename_i h
    simp only [h]
    rfl
  · rename_i c rest h
    simp only [h]
    by_cases hc : c = ']'
    · simp only [if_pos hc]
      cases first <;> rfl
    · simp only [if_neg hc]
      cases hv : (value cs).rest with
      | none => simp only [Reading.outcome, hv, Option.map_none]
      | some tail =>
        obtain ⟨tail, htail⟩ := tail
        simp only [Reading.outcome, hv, Option.map_some]
        split
        · rename_i h'
          simp only [h', Option.map_map]
          rfl
        · rename_i h'
          simp only [h']
          rfl
        · simp only [Option.map_none]

theorem outcome_members (first : Bool) (cs : List Char) : (members first cs).outcome =
    match skipSpace cs with
    | '}' :: rest => if first then (([], .closed), some rest) else (([], .broken .malformed), none)
    | '"' :: rest =>
      match string (some []) rest with
      | .error fault => (([], .broken fault), none)
      | .ok (key, afterKey) =>
        match skipSpace afterKey with
        | ':' :: body =>
          match (value body).outcome with
          | (v, none) => (([(key.map String.ofList, v)], .closed), none)
          | (v, some tail) =>
            match skipSpace tail with
            | ',' :: tail => let r := (members false tail).outcome; (((key.map String.ofList, v) :: r.1.1, r.1.2), r.2)
            | '}' :: tail => (([(key.map String.ofList, v)], .closed), some tail)
            | tail => (([(key.map String.ofList, v)], .broken (.before tail)), none)
        | tail => (([(key.map String.ofList, .broken (.before tail))], .closed), none)
    | rest => (([], .broken (.before rest)), none) := by
  rw [members]
  split
  · rename_i h
    simp only [h]
    cases first <;> rfl
  · rename_i rest h
    simp only [h]
    split
    · rename_i hs
      simp only [hs]
      rfl
    · rename_i key afterKey hs
      simp only [hs]
      split
      · rename_i body hc
        simp only [hc]
        cases hv : (value body).rest with
        | none => simp only [Reading.outcome, hv, Option.map_none]
        | some tail =>
          obtain ⟨tail, htail⟩ := tail
          simp only [Reading.outcome, hv, Option.map_some]
          split
          · rename_i h'
            simp only [h', Option.map_map]
            rfl
          · rename_i h'
            simp only [h']
            rfl
          · simp only [Option.map_none]
      · simp only [Reading.outcome, Option.map_none]
  · simp only [Reading.outcome, Option.map_none]

/-! ## Values -/

structure Reads (t : List Char) (v : Value) : Prop where
  starts : ∃ c t', t = c :: t' ∧ isSpace c = false ∧ c ≠ ']'
  outcome : ∀ a rest, Blank a → Delimited rest → (value (a ++ (t ++ rest))).outcome = (v, some rest)

inductive ReadsPair : List Char → Option String × Value → Prop
  | mk {k u t : List Char} {name : Option (List Char)} {v : Value} : PairText k u t →
    (∀ rest, string (some []) (k ++ '"' :: rest) = .ok (name, rest)) → Reads u v →
    ReadsPair t (name.map String.ofList, v)

theorem reads_scalar {c : Char} {t : List Char} {v : Value} (hc : isSpace c = false) (hbracket : c ∉ ['[', '{', ']'])
    (h : ∀ rest, Delimited rest → scalar (c :: t ++ rest) = (v, some rest)) : Reads (c :: t) v := by
  simp only [List.mem_cons, List.not_mem_nil, or_false, not_or] at hbracket
  obtain ⟨hopen, hbrace, hclose⟩ := hbracket
  refine ⟨⟨c, t, rfl, hc, hclose⟩, fun a rest ha hrest => ?_⟩
  rw [outcome_value, skipSpace_append ha, List.cons_append, skipSpace_cons hc]
  have := h rest hrest
  rw [List.cons_append] at this
  split
  · rename_i heq
    cases heq
    exact absurd rfl hopen
  · rename_i heq
    cases heq
    exact absurd rfl hbrace
  · exact this

theorem reads_string {t : List Char} {o : Option (List Char)}
    (h : ∀ rest, string (some []) (t ++ '"' :: rest) = .ok (o, rest)) :
    Reads ('"' :: (t ++ ['"'])) (.string (o.map String.ofList)) := by
  apply reads_scalar
  · rfl
  · decide
  · intro rest _
    have hquote : '"' :: (t ++ ['"']) ++ rest = '"' :: (t ++ '"' :: rest) := by simp
    rw [hquote, scalar, h]

theorem reads_number {t : List Char} {n : Number} (ht : NumberText t)
    (h : ∀ rest, Delimited rest → scalar (t ++ rest) = (.number n, some rest)) : Reads t (.number n) := by
  obtain ⟨c, t', rfl, hc⟩ := ht.starts
  have hother : ∀ d ∈ [' ', '\n', '\t', '\r', '[', '{', ']'], ¬(d.isDigit = true ∨ d = '-') := by simp
  have hne : ∀ d ∈ [' ', '\n', '\t', '\r', '[', '{', ']'], c ≠ d := by
    rintro d hd rfl
    exact hother c hd hc
  simp only [List.forall_mem_cons] at hne
  refine reads_scalar ?_ ?_ h
  · simp [isSpace, hne]
  · simp [hne]

/-! ## Brackets -/

/-- What is read between brackets, from what is read of one item before a comma or the end. -/
theorem outcome_of_listed {α : Type} {f : Bool → List Char → (List α × Finish) × Option (List Char)} {close : Char}
    {R : List Char → α → Prop}
    (hnone : ∀ {a}, Blank a → ∀ rest, f true (a ++ close :: rest) = (([], .closed), some rest))
    (hlast : ∀ {t x a b}, R t x → Blank a → Blank b → ∀ first rest,
      f first (a ++ (t ++ (b ++ close :: rest))) = (([x], .closed), some rest))
    (hcomma : ∀ {t x a b}, R t x → Blank a → Blank b → ∀ first rest,
      f first (a ++ (t ++ (b ++ ',' :: rest))) = ((x :: (f false rest).1.1, (f false rest).1.2), (f false rest).2))
    {ts : List (List Char)} {u : List Char} (h : Listed ts u) : ∀ {xs : List α}, List.Forall₂ R ts xs →
      ∀ first, (ts = [] → first = true) → ∀ rest, f first (u ++ close :: rest) = ((xs, .closed), some rest) := by
  induction h with
  | none ha =>
    intro xs hxs first hfirst rest
    cases hxs
    rw [hfirst rfl]
    exact hnone ha rest
  | one ha hb =>
    intro xs hxs first _ rest
    obtain _ | ⟨hx, hnil⟩ := hxs
    cases hnil
    rw [List.append_assoc, List.append_assoc]
    exact hlast hx ha hb first rest
  | more ha hb _ ih =>
    intro xs hxs first _ rest
    obtain _ | ⟨hx, hxs⟩ := hxs
    rw [List.append_assoc, List.append_assoc, List.append_assoc, List.cons_append, hcomma hx ha hb, ih hxs false nofun]

theorem Reads.item {t : List Char} {v : Value} (h : Reads t v) {a b rest : List Char} (ha : Blank a) (hb : Blank b)
    (hrest : Delimited rest) (first : Bool) : (items first (a ++ (t ++ (b ++ rest)))).outcome =
      match skipSpace rest with
      | ',' :: tail => let r := (items false tail).outcome; ((v :: r.1.1, r.1.2), r.2)
      | ']' :: tail => (([v], .closed), some tail)
      | tail => (([v], .broken (.before tail)), none) := by
  obtain ⟨c, t', ht, hspace, hclose⟩ := h.starts
  have hskip : skipSpace (a ++ (t ++ (b ++ rest))) = c :: (t' ++ (b ++ rest)) := by
    rw [skipSpace_append ha, ht, List.cons_append, skipSpace_cons hspace]
  rw [outcome_items, hskip]
  simp only [if_neg hclose, h.outcome a (b ++ rest) ha (hrest.blank hb), skipSpace_append hb]

theorem items_of_listed {ts : List (List Char)} {vs : List Value} {u : List Char} (h : Listed ts u)
    (hvs : List.Forall₂ Reads ts vs) (rest : List Char) :
    (items true (u ++ ']' :: rest)).outcome = ((vs, .closed), some rest) := by
  refine outcome_of_listed (f := fun first cs => (items first cs).outcome) ?_ ?_ ?_ h hvs true (fun _ => rfl) rest
  · intro a ha rest
    rw [outcome_items, skipSpace_append ha]
    rfl
  · intro t v a b hv ha hb first rest
    exact hv.item ha hb (.cons (c := ']') (by decide) rest) first
  · intro t v a b hv ha hb first rest
    exact hv.item ha hb (.cons (c := ',') (by decide) rest) first

theorem reads_array {ts : List (List Char)} {vs : List Value} {u : List Char} (h : Listed ts u)
    (hvs : List.Forall₂ Reads ts vs) : Reads ('[' :: (u ++ [']'])) (.array vs .closed) := by
  refine ⟨⟨'[', _, rfl, rfl, by decide⟩, fun a rest ha _ => ?_⟩
  have hopen : skipSpace (a ++ ('[' :: (u ++ [']']) ++ rest)) = '[' :: (u ++ ']' :: rest) := by
    rw [skipSpace_append ha, List.cons_append, skipSpace_cons rfl, List.append_assoc, List.singleton_append]
  rw [outcome_value, hopen]
  show (_, _) = _
  rw [items_of_listed h hvs]

theorem ReadsPair.item {t : List Char} {m : Option String × Value} (h : ReadsPair t m) {a b rest : List Char}
    (ha : Blank a) (hb : Blank b) (hrest : Delimited rest) (first : Bool) :
    (members first (a ++ (t ++ (b ++ rest)))).outcome =
      match skipSpace rest with
      | ',' :: tail => let r := (members false tail).outcome; ((m :: r.1.1, r.1.2), r.2)
      | '}' :: tail => (([m], .closed), some tail)
      | tail => (([m], .broken (.before tail)), none) := by
  obtain @⟨k, u, _, name, v, ⟨ha', hb'⟩, hname, hv⟩ := h
  rename_i a' b'
  have hskip : skipSpace (a ++ ('"' :: (k ++ '"' :: (a' ++ ':' :: (b' ++ u))) ++ (b ++ rest))) =
      '"' :: (k ++ '"' :: (a' ++ ':' :: (b' ++ (u ++ (b ++ rest))))) := by
    rw [skipSpace_append ha, List.cons_append, skipSpace_cons rfl]
    simp
  have hcolon : skipSpace (a' ++ ':' :: (b' ++ (u ++ (b ++ rest)))) = ':' :: (b' ++ (u ++ (b ++ rest))) := by
    rw [skipSpace_append ha', skipSpace_cons rfl]
  rw [outcome_members, hskip]
  simp only [hname, hcolon, hv.outcome b' (b ++ rest) hb' (hrest.blank hb), skipSpace_append hb]

theorem members_of_listed {ts : List (List Char)} {ms : List (Option String × Value)} {u : List Char} (h : Listed ts u)
    (hms : List.Forall₂ ReadsPair ts ms) (rest : List Char) :
    (members true (u ++ '}' :: rest)).outcome = ((ms, .closed), some rest) := by
  refine outcome_of_listed (f := fun first cs => (members first cs).outcome) ?_ ?_ ?_ h hms true (fun _ => rfl) rest
  · intro a ha rest
    rw [outcome_members, skipSpace_append ha]
    rfl
  · intro t m a b hm ha hb first rest
    exact hm.item ha hb (.cons (c := '}') (by decide) rest) first
  · intro t m a b hm ha hb first rest
    exact hm.item ha hb (.cons (c := ',') (by decide) rest) first

theorem reads_object {ts : List (List Char)} {ms : List (Option String × Value)} {u : List Char} (h : Listed ts u)
    (hms : List.Forall₂ ReadsPair ts ms) : Reads ('{' :: (u ++ ['}'])) (.object ms .closed) := by
  refine ⟨⟨'{', _, rfl, rfl, by decide⟩, fun a rest ha _ => ?_⟩
  have hopen : skipSpace (a ++ ('{' :: (u ++ ['}']) ++ rest)) = '{' :: (u ++ '}' :: rest) := by
    rw [skipSpace_append ha, List.cons_append, skipSpace_cons rfl, List.append_assoc, List.singleton_append]
  rw [outcome_value, hopen]
  show (_, _) = _
  rw [members_of_listed h hms]

theorem ofText_of_outcome {text : String} {v : Value} {rest : List Char}
    (h : (value text.toList).outcome = (v, some rest)) : Document.ofText text = ⟨v, (skipSpace rest).isEmpty⟩ := by
  obtain ⟨hvalue, hrest⟩ := Prod.mk.inj h
  obtain ⟨tail, htail, rfl⟩ := Option.map_eq_some_iff.mp hrest
  simp only [Document.ofText, hvalue, htail]

end Highlight.Json
