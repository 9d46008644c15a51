import Highlight.Grammar.Reading
import Highlight.Proofs.Reordering
import Mathlib.Data.List.Perm.Basic

/-!
# Rules and grammars as records

A rule is a list of fields, each with its key and its value. An object gives a record when its
members are the fields that are set, in any order and with other members between them: each
field is filled once, and a member that means nothing changes none. Nothing is left of the order
but in maps, which have none of their own.
-/

namespace Highlight.Grammar

/-! ## Fields -/

inductive FieldValue where
  | text (value : Option String)
  | map (entries : List (String × RuleSource))
  | rules (rules : List RuleSource)
  | flag (value : Bool)

def FieldValue.isSet : FieldValue → Bool
  | text value => value.isSome
  | map entries => !entries.isEmpty
  | .rules l => !l.isEmpty
  | flag value => value

def RuleSource.fields (s : RuleSource) : List (String × FieldValue) :=
  [("include", .text s.reference), ("match", .text s.pattern), ("begin", .text s.opening),
    ("end", .text s.closing), ("while", .text s.condition), ("name", .text s.name),
    ("contentName", .text s.contentName), ("captures", .map s.captures),
    ("beginCaptures", .map s.openingCaptures), ("endCaptures", .map s.closingCaptures),
    ("whileCaptures", .map s.conditionCaptures), ("patterns", .rules s.patterns),
    ("repository", .map s.repository), ("applyEndPatternLast", .flag s.closingLast),
    ("disabled", .flag s.disabled)]

def GrammarSource.fields (g : GrammarSource) : List (String × FieldValue) :=
  [("name", .text g.name), ("scopeName", .text g.scopeName), ("patterns", .rules g.patterns),
    ("repository", .map g.repository)]

inductive FieldValue.Same (R : RuleSource → RuleSource → Prop) : FieldValue → FieldValue → Prop
  | text {o : Option String} : Same R (.text o) (.text o)
  | map {entries entries' : List (String × RuleSource)} : Shuffled (SameName R) entries entries' →
    Same R (.map entries) (.map entries')
  | rules {l l' : List RuleSource} : List.Forall₂ R l l' → Same R (.rules l) (.rules l')
  | flag {b : Bool} : Same R (.flag b) (.flag b)

/-- The rules are the same but for the order of each map in them, at any depth. -/
inductive RuleSource.Same : RuleSource → RuleSource → Prop
  | mk {s s' : RuleSource} : List.Forall₂ (SameName (FieldValue.Same Same)) s.fields s'.fields → Same s s'

def GrammarSource.Same (g g' : GrammarSource) : Prop :=
  List.Forall₂ (SameName (FieldValue.Same RuleSource.Same)) g.fields g'.fields

/-! ## Nesting -/

mutual

def RuleSource.nesting : RuleSource → Nat
  | ⟨_, _, _, _, _, _, _, captures, openingCaptures, closingCaptures, conditionCaptures, patterns, repository, _, _⟩ =>
    1 + max (nestingOfEntries captures) (max (nestingOfEntries openingCaptures)
      (max (nestingOfEntries closingCaptures) (max (nestingOfEntries conditionCaptures)
        (max (nestingOfRules patterns) (nestingOfEntries repository)))))

def nestingOfRules : List RuleSource → Nat
  | [] => 0
  | s :: rest => max (1 + s.nesting) (nestingOfRules rest)

def nestingOfEntries : List (String × RuleSource) → Nat
  | [] => 0
  | (_, s) :: rest => max (1 + s.nesting) (nestingOfEntries rest)

end

def GrammarSource.nesting (g : GrammarSource) : Nat :=
  1 + max (nestingOfRules g.patterns) (nestingOfEntries g.repository)

def FieldValue.nesting : FieldValue → Nat
  | text _ => 0
  | map entries => nestingOfEntries entries
  | .rules l => nestingOfRules l
  | flag _ => 0

theorem nesting_pos (s : RuleSource) : 0 < s.nesting := by
  obtain ⟨⟩ := s
  rw [RuleSource.nesting]
  omega

theorem nesting_lt_of_mem_rules {l : List RuleSource} {s : RuleSource} (h : s ∈ l) : s.nesting < nestingOfRules l := by
  induction l with
  | nil => cases h
  | cons t l ih =>
    rw [nestingOfRules]
    rcases List.mem_cons.mp h with rfl | h
    · omega
    · have := ih h
      omega

theorem nesting_lt_of_mem_entries {entries : List (String × RuleSource)} {e : String × RuleSource} (h : e ∈ entries) :
    e.2.nesting < nestingOfEntries entries := by
  induction entries with
  | nil => cases h
  | cons d entries ih =>
    obtain ⟨name, t⟩ := d
    rw [nestingOfEntries]
    rcases List.mem_cons.mp h with rfl | h
    · show t.nesting < _
      omega
    · have := ih h
      omega

theorem nesting_lt_of_mem_fields (s : RuleSource) : ∀ f ∈ s.fields, f.2.nesting < s.nesting := by
  obtain ⟨_, _, _, _, _, _, _, captures, opening, closing, condition, patterns, repository, _, _⟩ := s
  simp only [RuleSource.fields, List.forall_mem_cons, List.not_mem_nil, false_implies, implies_true, and_true,
    FieldValue.nesting, RuleSource.nesting]
  and_intros <;> omega

theorem nesting_lt_of_mem_grammar_fields (g : GrammarSource) : ∀ f ∈ g.fields, f.2.nesting < g.nesting := by
  simp only [GrammarSource.fields, List.forall_mem_cons, List.not_mem_nil, false_implies, implies_true, and_true,
    FieldValue.nesting, GrammarSource.nesting]
  and_intros <;> omega

/-! ## Views of fields -/

/-- The view of a field's kind gives its value, but for the order of maps. -/
def FieldValue.ReadFrom (v : Views) : FieldValue → Prop
  | text o => v.text = .ok o
  | map entries => ∃ entries', v.named = .ok entries' ∧ Shuffled (SameName RuleSource.Same) entries entries'
  | rules l => ∃ l', v.rules = .ok l' ∧ List.Forall₂ RuleSource.Same l l'
  | flag b => v.flag = .ok b

def RuleSource.textOf (s : RuleSource) : TextField → Option String
  | .reference => s.reference
  | .pattern => s.pattern
  | .opening => s.opening
  | .closing => s.closing
  | .condition => s.condition
  | .name => s.name
  | .contentName => s.contentName

def RuleSource.mapOf (s : RuleSource) : MapField → List (String × RuleSource)
  | .captures => s.captures
  | .openingCaptures => s.openingCaptures
  | .closingCaptures => s.closingCaptures
  | .conditionCaptures => s.conditionCaptures
  | .repository => s.repository

def RuleSource.flagOf (s : RuleSource) : FlagField → Bool
  | .closingLast => s.closingLast
  | .disabled => s.disabled

def RuleSource.field (s : RuleSource) : RuleField → FieldValue
  | .text field => .text (s.textOf field)
  | .map field => .map (s.mapOf field)
  | .patterns => .rules s.patterns
  | .flag field => .flag (s.flagOf field)

def GrammarSource.field (g : GrammarSource) : GrammarField → FieldValue
  | .name => .text g.name
  | .scopeName => .text g.scopeName
  | .patterns => .rules g.patterns
  | .repository => .map g.repository

section

variable (s : RuleSource) (f : RuleField)

theorem RuleSource.field_setText (o : Option String) (field : TextField) :
    (s.setText o field).field f = if f = .text field then .text o else s.field f := by
  cases f with
  | text g => cases field <;> cases g <;> rfl
  | map g => cases field <;> cases g <;> rfl
  | patterns => cases field <;> rfl
  | flag g => cases field <;> cases g <;> rfl

theorem RuleSource.field_setMap (entries : List (String × RuleSource)) (field : MapField) :
    (s.setMap entries field).field f = if f = .map field then .map entries else s.field f := by
  cases f with
  | text g => cases field <;> cases g <;> rfl
  | map g => cases field <;> cases g <;> rfl
  | patterns => cases field <;> rfl
  | flag g => cases field <;> cases g <;> rfl

theorem RuleSource.field_setPatterns (l : List RuleSource) :
    RuleSource.field { s with patterns := l } f = if f = .patterns then .rules l else s.field f := by
  cases f with
  | text g => rfl
  | map g => rfl
  | patterns => rfl
  | flag g => rfl

theorem RuleSource.field_setFlag (b : Bool) (field : FlagField) :
    (s.setFlag b field).field f = if f = .flag field then .flag b else s.field f := by
  cases f with
  | text g => cases field <;> cases g <;> rfl
  | map g => cases field <;> cases g <;> rfl
  | patterns => cases field <;> rfl
  | flag g => cases field <;> cases g <;> rfl

end

/-- A view of its value fills a field, and no other. -/
theorem RuleSource.set_ok {s r : RuleSource} {v : Views} {f : RuleField} (h : (s.field f).ReadFrom v) :
    ∃ r', r.set v f = .ok r' ∧ FieldValue.Same RuleSource.Same (s.field f) (r'.field f) ∧
      ∀ f' ≠ f, r'.field f' = r.field f' := by
  cases f with
  | text field =>
    have hview : v.text = .ok (s.textOf field) := h
    refine ⟨r.setText (s.textOf field) field, ?_, ?_, fun f' hne => ?_⟩
    · rw [RuleSource.set, hview]
      rfl
    · rw [field_setText, if_pos rfl]
      exact .text
    · rw [field_setText, if_neg hne]
  | map field =>
    obtain ⟨entries, hview, hsame⟩ := h
    refine ⟨r.setMap entries field, ?_, ?_, fun f' hne => ?_⟩
    · rw [RuleSource.set, hview]
      rfl
    · rw [field_setMap, if_pos rfl]
      exact .map hsame
    · rw [field_setMap, if_neg hne]
  | patterns =>
    obtain ⟨l, hview, hsame⟩ := h
    refine ⟨{ r with patterns := l }, ?_, ?_, fun f' hne => ?_⟩
    · rw [RuleSource.set, hview]
      rfl
    · rw [field_setPatterns, if_pos rfl]
      exact .rules hsame
    · rw [field_setPatterns, if_neg hne]
  | flag field =>
    have hview : v.flag = .ok (s.flagOf field) := h
    refine ⟨r.setFlag (s.flagOf field) field, ?_, ?_, fun f' hne => ?_⟩
    · rw [RuleSource.set, hview]
      rfl
    · rw [field_setFlag, if_pos rfl]
      exact .flag
    · rw [field_setFlag, if_neg hne]

section

variable (g : GrammarSource) (f : GrammarField)

theorem GrammarSource.field_setName (o : Option String) :
    GrammarSource.field { g with name := o } f = if f = .name then .text o else g.field f := by
  cases f <;> rfl

theorem GrammarSource.field_setScopeName (o : Option String) :
    GrammarSource.field { g with scopeName := o } f = if f = .scopeName then .text o else g.field f := by
  cases f <;> rfl

theorem GrammarSource.field_setPatterns (l : List RuleSource) :
    GrammarSource.field { g with patterns := l } f = if f = .patterns then .rules l else g.field f := by
  cases f <;> rfl

theorem GrammarSource.field_setRepository (entries : List (String × RuleSource)) :
    GrammarSource.field { g with repository := entries } f = if f = .repository then .map entries else g.field f := by
  cases f <;> rfl

end

theorem GrammarSource.set_ok {g r : GrammarSource} {v : Views} {f : GrammarField} (h : (g.field f).ReadFrom v) :
    ∃ r', r.set v f = .ok r' ∧ FieldValue.Same RuleSource.Same (g.field f) (r'.field f) ∧
      ∀ f' ≠ f, r'.field f' = r.field f' := by
  cases f with
  | name =>
    have hview : v.text = .ok g.name := h
    refine ⟨{ r with name := g.name }, ?_, .text, fun f' hne => ?_⟩
    · rw [GrammarSource.set, hview]
      rfl
    · rw [field_setName, if_neg hne]
  | scopeName =>
    have hview : v.text = .ok g.scopeName := h
    refine ⟨{ r with scopeName := g.scopeName }, ?_, .text, fun f' hne => ?_⟩
    · rw [GrammarSource.set, hview]
      rfl
    · rw [field_setScopeName, if_neg hne]
  | patterns =>
    obtain ⟨l, hview, hsame⟩ := h
    refine ⟨{ r with patterns := l }, ?_, .rules hsame, fun f' hne => ?_⟩
    · rw [GrammarSource.set, hview]
      rfl
    · rw [field_setPatterns, if_neg hne]
  | repository =>
    obtain ⟨entries, hview, hsame⟩ := h
    refine ⟨{ r with repository := entries }, ?_, .map hsame, fun f' hne => ?_⟩
    · rw [GrammarSource.set, hview]
      rfl
    · rw [field_setRepository, if_neg hne]

/-! ## Fields that are not set -/

def FieldValue.unset : FieldValue → FieldValue
  | text _ => .text none
  | map _ => .map []
  | rules _ => .rules []
  | flag _ => .flag false

theorem FieldValue.same_unset {R : RuleSource → RuleSource → Prop} {v : FieldValue} (h : v.isSet = false) :
    FieldValue.Same R v v.unset := by
  cases v with
  | text o =>
    cases o with
    | none => exact .text
    | some text => cases h
  | map entries =>
    cases entries with
    | nil => exact .map .nil
    | cons e entries => cases h
  | rules l =>
    cases l with
    | nil => exact .rules .nil
    | cons s l => cases h
  | flag b =>
    cases b with
    | false => exact .flag
    | true => cases h

theorem RuleSource.unset_field (s : RuleSource) (f : RuleField) : (s.field f).unset = RuleSource.empty.field f := by
  cases f with
  | text g => cases g <;> rfl
  | map g => cases g <;> rfl
  | patterns => rfl
  | flag g => cases g <;> rfl

theorem GrammarSource.unset_field (g : GrammarSource) (f : GrammarField) :
    (g.field f).unset = GrammarSource.empty.field f := by
  cases f <;> rfl

/-! ## Objects as records -/

/-- The members of an object: the fields that are set, and others under keys that no field has,
in any order. -/
def MembersOf (fields : List (String × FieldValue)) (ms : List (String × Option FieldValue)) : Prop :=
  ∃ others : List String, (∀ key ∈ others, ∀ f ∈ fields, key ≠ f.1) ∧
    ms.Perm ((fields.filter fun f => f.2.isSet).map (fun f => (f.1, some f.2)) ++ others.map fun key => (key, none))

theorem MembersOf.of_mem {fields : List (String × FieldValue)} {ms : List (String × Option FieldValue)}
    (h : MembersOf fields ms) {key : String} {f : FieldValue} (hm : (key, some f) ∈ ms) :
    (key, f) ∈ fields ∧ f.isSet = true := by
  obtain ⟨others, _, hperm⟩ := h
  rcases List.mem_append.mp (hperm.mem_iff.mp hm) with hm | hm
  · obtain ⟨e, he, heq⟩ := List.mem_map.mp hm
    cases heq
    exact List.mem_filter.mp he
  · obtain ⟨_, _, heq⟩ := List.mem_map.mp hm
    cases heq

structure Shows (m : String × Option FieldValue) (part : Option String × Views) : Prop where
  key : part.1 = some m.1
  value : ∀ f, m.2 = some f → f.ReadFrom part.2
  skip : m.2 = none → part.2.skip = .ok ()

def given {F : Type} (all : List (String × F)) (ms : List (String × Option FieldValue)) : List F :=
  ms.filterMap fun m => all.lookup m.1

section

variable {F : Type} {all : List (String × F)} {get : F → FieldValue}

theorem given_cons_of_none {m : String × Option FieldValue} {ms : List (String × Option FieldValue)}
    (h : all.lookup m.1 = none) : given all (m :: ms) = given all ms :=
  List.filterMap_cons_none h

theorem given_cons_of_some {m : String × Option FieldValue} {ms : List (String × Option FieldValue)} {f : F}
    (h : all.lookup m.1 = some f) : given all (m :: ms) = f :: given all ms :=
  List.filterMap_cons_some h

theorem lookup_other {key : String} (h : ∀ f ∈ all.map fun e => (e.1, get e.2), key ≠ f.1) : all.lookup key = none := by
  rw [List.lookup_eq_none_iff]
  intro e he
  have := h _ (List.mem_map_of_mem he)
  simpa using this

theorem lookup_member (hall : ∀ e ∈ all, all.lookup e.1 = some e.2) {ms : List (String × Option FieldValue)}
    (h : MembersOf (all.map fun e => (e.1, get e.2)) ms) : ∀ m ∈ ms, m.2 = (all.lookup m.1).map get := by
  obtain ⟨others, hothers, hperm⟩ := h
  intro m hm
  rcases List.mem_append.mp (hperm.mem_iff.mp hm) with hm | hm
  · obtain ⟨f, hf, rfl⟩ := List.mem_map.mp hm
    obtain ⟨e, he, rfl⟩ := List.mem_map.mp (List.mem_filter.mp hf).1
    rw [hall e he]
    rfl
  · obtain ⟨key, hkey, rfl⟩ := List.mem_map.mp hm
    rw [lookup_other (hothers key hkey)]
    rfl

/-- What is given are the fields that are set, each once. -/
theorem given_perm (hall : ∀ e ∈ all, all.lookup e.1 = some e.2) {ms : List (String × Option FieldValue)}
    (h : MembersOf (all.map fun e => (e.1, get e.2)) ms) :
    (given all ms).Perm ((all.filter fun e => (get e.2).isSet).map (·.2)) := by
  obtain ⟨others, hothers, hperm⟩ := h
  refine (hperm.filterMap _).trans (.of_eq ?_)
  have hnone : given all (others.map fun key => (key, none)) = [] := by
    rw [given, List.filterMap_eq_nil_iff]
    intro m hm
    obtain ⟨key, hkey, rfl⟩ := List.mem_map.mp hm
    exact lookup_other (hothers key hkey)
  rw [given] at hnone
  rw [List.filterMap_append, hnone, List.append_nil, List.filter_map, List.map_map, List.filterMap_map,
    ← List.filterMap_eq_map]
  exact List.filterMap_congr fun e he => hall e (List.mem_filter.mp he).1

variable {R : Type} [DecidableEq F] {set : R → Views → F → Except Json.Problem R} {value : R → F → FieldValue}

/-- Each member fills its field, or none, and leaves the others. -/
theorem ofMembers_fills (hset : ∀ r v f, (get f).ReadFrom v → ∃ r', set r v f = .ok r' ∧
      FieldValue.Same RuleSource.Same (get f) (value r' f) ∧ ∀ f' ≠ f, value r' f' = value r f')
    {ms : List (String × Option FieldValue)} {parts : List (Option String × Views)} (h : List.Forall₂ Shows ms parts) :
    ∀ {seen : List F} {r : R}, (∀ m ∈ ms, m.2 = (all.lookup m.1).map get) → (given all ms).Nodup →
      (∀ f ∈ seen, f ∉ given all ms) → ∃ r', ofMembers all set .closed seen r parts = .ok r' ∧
        ∀ f, f ∈ given all ms ∨ FieldValue.Same RuleSource.Same (get f) (value r f) →
          FieldValue.Same RuleSource.Same (get f) (value r' f) := by
  -- a field once right stays right, since no later member is given for it
  induction h with
  | nil =>
    intro seen r _ _ _
    refine ⟨r, rfl, fun f hf => ?_⟩
    rcases hf with hf | hf
    · cases hf
    · exact hf
  | @cons m part ms parts hm _ ih =>
    intro seen r hlookup hnodup hseen
    obtain ⟨_, v⟩ := part
    obtain ⟨rfl, hvalue, hskip⟩ := hm
    have hhead := hlookup _ (List.mem_cons_self ..)
    have htail := fun m hm => hlookup m (List.mem_cons_of_mem _ hm)
    cases hkey : all.lookup m.1 with
    | none =>
      rw [hkey] at hhead
      rw [given_cons_of_none hkey] at hnodup hseen ⊢
      obtain ⟨r', hr', hsame⟩ := ih htail hnodup hseen
      have hpass : v.skip = .ok () := hskip hhead
      refine ⟨r', ?_, hsame⟩
      simp only [ofMembers, hkey, hpass, hr']
    | some f =>
      rw [hkey] at hhead
      rw [given_cons_of_some hkey] at hnodup hseen ⊢
      obtain ⟨hf, hnodup⟩ := List.nodup_cons.mp hnodup
      obtain ⟨r₁, hr₁, hsame₁, hother⟩ := hset r v f (hvalue _ hhead)
      have hseen' : ∀ g ∈ f :: seen, g ∉ given all ms := by
        intro g hg
        rcases List.mem_cons.mp hg with rfl | hg
        · exact hf
        · exact fun hmem => hseen g hg (List.mem_cons_of_mem _ hmem)
      obtain ⟨r', hr', hsame⟩ := @ih (f :: seen) r₁ htail hnodup hseen'
      have hfresh : f ∉ seen := fun hmem => hseen f hmem (List.mem_cons_self ..)
      refine ⟨r', ?_, fun g hg => hsame g ?_⟩
      · simp only [ofMembers, hkey, if_neg hfresh, hr₁, hr']
      · by_cases hgf : g = f
        · subst hgf
          exact .inr hsame₁
        · rw [hother g hgf]
          exact hg.imp_left fun hg => (List.mem_cons.mp hg).resolve_left hgf

/-- An object with the fields of a record gives the record. -/
theorem ofMembers_record {record empty : R} (hall : ∀ e ∈ all, all.lookup e.1 = some e.2) (hfields : (all.map (·.2)).Nodup)
    (hset : ∀ r v f, (value record f).ReadFrom v → ∃ r', set r v f = .ok r' ∧
      FieldValue.Same RuleSource.Same (value record f) (value r' f) ∧ ∀ f' ≠ f, value r' f' = value r f')
    (hempty : ∀ f, (value record f).unset = value empty f)
    {ms : List (String × Option FieldValue)} (hms : MembersOf (all.map fun e => (e.1, value record e.2)) ms)
    {parts : List (Option String × Views)} (h : List.Forall₂ Shows ms parts) :
    ∃ r, ofMembers all set .closed [] empty parts = .ok r ∧
      List.Forall₂ (SameName (FieldValue.Same RuleSource.Same)) (all.map fun e => (e.1, value record e.2))
        (all.map fun e => (e.1, value r e.2)) := by
  have hperm := given_perm hall hms
  have hnodup : (given all ms).Nodup :=
    hperm.nodup_iff.mpr (hfields.sublist (List.filter_sublist.map _))
  obtain ⟨r, hr, hsame⟩ := ofMembers_fills hset h (lookup_member hall hms) hnodup (fun _ hf => absurd hf List.not_mem_nil)
  refine ⟨r, hr, ?_⟩
  rw [List.forall₂_map_left_iff, List.forall₂_map_right_iff, List.forall₂_same]
  intro e he
  refine .mk (hsame e.2 ?_)
  by_cases hset : (value record e.2).isSet = true
  · exact .inl (hperm.mem_iff.mpr (List.mem_map_of_mem (List.mem_filter.mpr ⟨he, hset⟩)))
  · rw [← hempty]
    exact .inr (FieldValue.same_unset (Bool.eq_false_iff.mpr hset))

end

theorem RuleSource.ofMembers_ok {s : RuleSource} {ms : List (String × Option FieldValue)} (hms : MembersOf s.fields ms)
    {parts : List (Option String × Views)} (h : List.Forall₂ Shows ms parts) :
    ∃ s', ofMembers RuleField.all RuleSource.set .closed [] .empty parts = .ok s' ∧ s.Same s' := by
  have hall : ∀ e ∈ RuleField.all, RuleField.all.lookup e.1 = some e.2 := by decide
  have hfields : (RuleField.all.map (·.2)).Nodup := by decide
  obtain ⟨s', hs', hsame⟩ := ofMembers_record hall hfields (fun _ _ _ => set_ok) s.unset_field hms h
  exact ⟨s', hs', .mk hsame⟩

theorem GrammarSource.ofMembers_ok {g : GrammarSource} {ms : List (String × Option FieldValue)}
    (hms : MembersOf g.fields ms) {parts : List (Option String × Views)} (h : List.Forall₂ Shows ms parts) :
    ∃ g', ofMembers GrammarField.all GrammarSource.set .closed [] .empty parts = .ok g' ∧ g.Same g' := by
  have hall : ∀ e ∈ GrammarField.all, GrammarField.all.lookup e.1 = some e.2 := by decide
  have hfields : (GrammarField.all.map (·.2)).Nodup := by decide
  exact ofMembers_record hall hfields (fun _ _ _ => set_ok) g.unset_field hms h

end Highlight.Grammar
