import Highlight.Proofs.JsonTexts
import Highlight.Proofs.Records

/-!
# The texts of grammars

A grammar may be written in many ways: with the keys of each object in any order, with blanks,
with escapes, and with further members of any shape that mean nothing. Each text gives the
grammar back, as long as its brackets are not nested too deep; those of members that mean
nothing do not count.
-/

namespace Highlight.Grammar

open Json (Blank HexText Listed NumberText PairText PowerText Reads ReadsPair Spells WellFormed spells_self)

/-! ## Texts -/

inductive EntryText (R : RuleSource → List Char → Prop) : String × RuleSource → List Char → Prop
  | mk {key : String} {s : RuleSource} {k u t : List Char} : Spells k key.toList → PairText k u t → R s u →
    EntryText R (key, s) t

inductive FieldText (R : RuleSource → List Char → Prop) : FieldValue → List Char → Prop
  | text {text : String} {t : List Char} : Spells t text.toList → FieldText R (.text (some text)) ('"' :: (t ++ ['"']))
  | true : FieldText R (.flag true) ['t', 'r', 'u', 'e']
  | integer {i : Int} : i ≠ 0 → -0x8000000000000000 ≤ i → i < 0x8000000000000000 →
    FieldText R (.flag true) (toString i).toList
  | rules {l : List RuleSource} {ts : List (List Char)} {u : List Char} : List.Forall₂ R l ts → Listed ts u →
    FieldText R (.rules l) ('[' :: (u ++ [']']))
  | map {entries entries' : List (String × RuleSource)} {ts : List (List Char)} {u : List Char} :
    (entries.map (·.1)).Nodup → entries.Perm entries' → List.Forall₂ (EntryText R) entries' ts → Listed ts u →
    FieldText R (.map entries) ('{' :: (u ++ ['}']))

/-- A field under its key, or any JSON under a key that means nothing. -/
inductive MemberText (R : RuleSource → List Char → Prop) : String × Option FieldValue → List Char → Prop
  | field {key : String} {f : FieldValue} {k u t : List Char} : Spells k key.toList → PairText k u t → FieldText R f u →
    MemberText R (key, some f) t
  | other {key : String} {k u t : List Char} : Spells k key.toList → PairText k u t → WellFormed u →
    MemberText R (key, none) t

inductive RuleText : RuleSource → List Char → Prop
  | mk {s : RuleSource} {ms : List (String × Option FieldValue)} {ts : List (List Char)} {u : List Char} :
    MembersOf s.fields ms → List.Forall₂ (MemberText RuleText) ms ts → Listed ts u → RuleText s ('{' :: (u ++ ['}']))

inductive GrammarText (g : GrammarSource) : List Char → Prop
  | mk {ms : List (String × Option FieldValue)} {ts : List (List Char)} {a b u : List Char} : Blank a → Blank b →
    MembersOf g.fields ms → List.Forall₂ (MemberText RuleText) ms ts → Listed ts u →
    GrammarText g (a ++ ('{' :: (u ++ ['}']) ++ b))

/-! ## Parts in order -/

theorem viewsOfItems_eq (depth : Nat) (vs : List Json.Value) : viewsOfItems depth vs = vs.map (viewsOf depth) := by
  induction vs with
  | nil => rfl
  | cons v vs ih => rw [viewsOfItems, ih, List.map_cons]

theorem viewsOfMembers_eq (depth : Nat) (ms : List (Option String × Json.Value)) :
    viewsOfMembers depth ms = ms.map fun m => (m.1, viewsOf depth m.2) := by
  induction ms with
  | nil => rfl
  | cons m ms ih => rw [viewsOfMembers, ih, List.map_cons]

theorem within_of_lt {α : Type} {depth : Nat} (h : depth < maxDepth) (r : Except Json.Problem α) : within depth r = r :=
  if_pos h

theorem inOrder_ok {α : Type} {rs : List (Except Json.Problem α)} {l : List α}
    (h : List.Forall₂ (fun r a => r = .ok a) rs l) : inOrder .closed rs = .ok l := by
  induction h with
  | nil => rfl
  | cons hr _ ih =>
    rw [hr, inOrder, ih]
    rfl

theorem skipOf_ok {parts : List Views} (h : ∀ v ∈ parts, v.skip = .ok ()) : skipOf .closed parts = .ok () := by
  induction parts with
  | nil => rfl
  | cons v parts ih =>
    rw [skipOf, h v (List.mem_cons_self ..)]
    exact ih fun w hw => h w (List.mem_cons_of_mem _ hw)

/-- Where no key comes twice, every entry is added behind the others. -/
theorem entriesOf_ok {parts : List (Option String × Views)} {entries : List (String × RuleSource)}
    (h : List.Forall₂ (fun part e => part.1 = some e.1 ∧ part.2.rule = .ok e.2) parts entries) :
    ∀ before : List (String × RuleSource), ((before ++ entries).map (·.1)).Nodup →
      entriesOf .closed before parts = .ok (before ++ entries) := by
  induction h with
  | nil =>
    intro before _
    rw [List.append_nil]
    rfl
  | @cons part e parts entries hpart _ ih =>
    intro before hnodup
    obtain ⟨_, v⟩ := part
    obtain ⟨rfl, hrule⟩ := hpart
    have hrule : v.rule = .ok e.2 := hrule
    have hfresh : before.any (·.1 == e.1) = false := by
      rw [List.any_eq_false]
      intro d hd
      rw [List.map_append, List.nodup_append] at hnodup
      have := hnodup.2.2 d.1 (List.mem_map_of_mem hd) e.1 (List.mem_map_of_mem (List.mem_cons_self ..))
      simpa using this
    have hset : setEntry before e.1 e.2 = before ++ [e] := by
      rw [setEntry, hfresh]
      rfl
    have := ih (before ++ [e]) (by rwa [List.append_assoc, List.singleton_append])
    rw [List.append_assoc, List.singleton_append] at this
    simp only [entriesOf, hrule, hset, this]

/-! ## Members that mean nothing -/

/-- Any JSON is read, and can be passed over at any depth. -/
theorem exists_skipped {t : List Char} (h : WellFormed t) :
    ∃ v, Reads t v ∧ ∀ depth, (viewsOf depth v).skip = .ok () := by
  induction h with
  | null =>
    exact ⟨.null, Json.reads_scalar rfl (by decide) fun _ _ => rfl, fun _ => rfl⟩
  | true =>
    exact ⟨.bool true, Json.reads_scalar rfl (by decide) fun _ _ => rfl, fun _ => rfl⟩
  | false =>
    exact ⟨.bool false, Json.reads_scalar rfl (by decide) fun _ _ => rfl, fun _ => rfl⟩
  | number ht =>
    obtain ⟨n, hn⟩ := Json.exists_scalar_number ht
    refine ⟨.number n, Json.reads_number ht hn, fun depth => ?_⟩
    rw [viewsOf]
    split <;> rfl
  | string ht =>
    obtain ⟨o, ho⟩ := Json.exists_string ht (some [])
    refine ⟨_, Json.reads_string ho, fun depth => ?_⟩
    cases o <;> rfl
  | array _ hlist ih =>
    obtain ⟨vs, hreads, hskip⟩ := Results.exists_between (List.forall₂_same.mpr fun _ _ => rfl) fun t ht _ h => h ▸ ih t ht
    refine ⟨_, Json.reads_array hlist hreads, fun depth => ?_⟩
    show skipOf .closed (viewsOfItems (depth + 1) vs) = _
    rw [viewsOfItems_eq]
    apply skipOf_ok
    intro v hv
    obtain ⟨w, hw, rfl⟩ := List.mem_map.mp hv
    obtain ⟨_, _, hskip⟩ := Results.exists_of_forall₂ hskip hw
    exact hskip (depth + 1)
  | @object ms ts u hkeys _ hpairs hlist ih =>
    have hex : ∀ m ∈ ms, ∀ t, PairText m.1 m.2 t →
        ∃ p, ReadsPair t p ∧ ∀ depth, (viewsOf depth p.2).skip = .ok () := by
      intro m hm t ht
      obtain ⟨v, hv, hskip⟩ := ih m hm
      obtain ⟨o, ho⟩ := Json.exists_string (hkeys m hm) (some [])
      exact ⟨_, .mk ht ho hv, hskip⟩
    obtain ⟨ps, hreads, hskip⟩ := Results.exists_between hpairs hex
    refine ⟨_, Json.reads_object hlist hreads, fun depth => ?_⟩
    show skipOf .closed ((viewsOfMembers (depth + 1) ps).map (·.2)) = _
    rw [viewsOfMembers_eq, List.map_map]
    apply skipOf_ok
    intro v hv
    obtain ⟨p, hp, rfl⟩ := List.mem_map.mp hv
    obtain ⟨_, _, hskip⟩ := Results.exists_of_forall₂ hskip hp
    exact hskip (depth + 1)

theorem readsPair_of_spells {key : String} {k u t : List Char} {v : Json.Value} (hkey : Spells k key.toList)
    (hpair : PairText k u t) (hv : Reads u v) : ReadsPair t (some key, v) := by
  have hname : (some key.toList).map String.ofList = some key := congrArg some String.ofList_toList
  rw [← hname]
  exact .mk hpair (fun rest => Json.string_of_spells hkey rest []) hv

/-! ## Values of fields -/

def ReadsRule (depth : Nat) (s : RuleSource) (t : List Char) : Prop :=
  ∃ v, Reads t v ∧ ∃ s', (viewsOf depth v).rule = .ok s' ∧ s.Same s'

section

variable {depth : Nat}

theorem exists_rules {l : List RuleSource} {ts : List (List Char)} {u : List Char} (h : List.Forall₂ RuleText l ts)
    (hlist : Listed ts u) (hdepth : depth < maxDepth) (hrules : ∀ s ∈ l, ∀ t, RuleText s t → ReadsRule (depth + 1) s t) :
    ∃ v, Reads ('[' :: (u ++ [']'])) v ∧ (FieldValue.rules l).ReadFrom (viewsOf depth v) := by
  obtain ⟨vs, hreads, hparts⟩ := Results.exists_between h hrules
  obtain ⟨l', hviews, hsame⟩ := Results.exists_between hparts fun _ _ _ hv => hv
  refine ⟨_, Json.reads_array hlist hreads, l', ?_, hsame⟩
  show within depth (inOrder .closed ((viewsOfItems (depth + 1) vs).map (·.rule))) = _
  rw [within_of_lt hdepth, viewsOfItems_eq, List.map_map]
  apply inOrder_ok
  rw [List.forall₂_map_left_iff]
  exact hviews

theorem exists_entries {entries entries' : List (String × RuleSource)} {ts : List (List Char)} {u : List Char}
    (hkeys : (entries.map (·.1)).Nodup) (hperm : entries.Perm entries') (h : List.Forall₂ (EntryText RuleText) entries' ts)
    (hlist : Listed ts u) (hdepth : depth < maxDepth)
    (hrules : ∀ e ∈ entries, ∀ t, RuleText e.2 t → ReadsRule (depth + 1) e.2 t) :
    ∃ v, Reads ('{' :: (u ++ ['}'])) v ∧ (FieldValue.map entries).ReadFrom (viewsOf depth v) := by
  have hex : ∀ e ∈ entries', ∀ t, EntryText RuleText e t → ∃ p : Option String × Json.Value, ReadsPair t p ∧
      ∃ e', (p.1 = some e'.1 ∧ (viewsOf (depth + 1) p.2).rule = .ok e'.2) ∧ SameName RuleSource.Same e e' := by
    intro e he t ht
    have hrule := hrules e (hperm.mem_iff.mpr he)
    obtain @⟨key, s, k, u, t, hkey, hpair, hu⟩ := ht
    obtain ⟨v, hv, s', hview, hsame⟩ := hrule u hu
    exact ⟨_, readsPair_of_spells hkey hpair hv, (key, s'), ⟨rfl, hview⟩, .mk hsame⟩
  obtain ⟨ps, hreads, hparts⟩ := Results.exists_between h hex
  obtain ⟨es, hviews, hsame⟩ := Results.exists_between hparts fun _ _ _ hp => hp
  refine ⟨_, Json.reads_object hlist hreads, es, ?_, ?_⟩
  · show within depth (entriesOf .closed [] (viewsOfMembers (depth + 1) ps)) = _
    rw [within_of_lt hdepth, viewsOfMembers_eq]
    apply entriesOf_ok
    · rw [List.forall₂_map_left_iff]
      exact hviews
    · rw [List.nil_append, map_fst_of_sameName hsame]
      exact ((hperm.map _).nodup_iff).mp hkeys
  · obtain ⟨es', hsame', hperm'⟩ := List.perm_comp_forall₂ hperm hsame
    exact .of_perm hsame' hperm'

/-- What is written for a value is read as the value, if the rules in it are. -/
theorem exists_value {f : FieldValue} {t : List Char} (h : FieldText RuleText f t) (hset : f.isSet = true)
    (hdepth : depth + f.nesting ≤ maxDepth)
    (hrules : ∀ s u, s.nesting < f.nesting → RuleText s u → ReadsRule (depth + 1) s u) :
    ∃ v, Reads t v ∧ f.ReadFrom (viewsOf depth v) := by
  cases h with
  | @text text t ht =>
    refine ⟨_, Json.reads_string fun rest => Json.string_of_spells ht rest [], ?_⟩
    show Except.ok (some (String.ofList text.toList)) = _
    rw [String.ofList_toList]
  | true => exact ⟨.bool true, Json.reads_scalar rfl (by decide) fun _ _ => rfl, rfl⟩
  | integer hne hlow hhigh =>
    obtain ⟨n, hn, hoverflows, hvalue⟩ := Json.exists_integer hne hlow hhigh
    refine ⟨.number n, Json.reads_number (Json.numberText_toString hne) hn, ?_⟩
    show (viewsOf depth (.number n)).flag = .ok true
    rw [viewsOf, hoverflows, hvalue]
    simp [Views.ofScalar, hne]
  | @rules l ts u hl hlist =>
    have hpos : 0 < nestingOfRules l := by
      cases l with
      | nil => cases hset
      | cons s l => exact Nat.lt_of_le_of_lt (Nat.zero_le _) (nesting_lt_of_mem_rules (List.mem_cons_self ..))
    have hdepth : depth + nestingOfRules l ≤ maxDepth := hdepth
    exact exists_rules hl hlist (by omega) fun s hs t => hrules s t (nesting_lt_of_mem_rules hs)
  | @map entries entries' ts u hkeys hperm hentries hlist =>
    have hpos : 0 < nestingOfEntries entries := by
      cases entries with
      | nil => cases hset
      | cons e entries => exact Nat.lt_of_le_of_lt (Nat.zero_le _) (nesting_lt_of_mem_entries (List.mem_cons_self ..))
    have hdepth : depth + nestingOfEntries entries ≤ maxDepth := hdepth
    exact exists_entries hkeys hperm hentries hlist (by omega) fun e he t => hrules e.2 t (nesting_lt_of_mem_entries he)

/-- The members of an object are read as its fields, if the rules in them are. -/
theorem exists_members {fields : List (String × FieldValue)} {ms : List (String × Option FieldValue)}
    (hms : MembersOf fields ms) {ts : List (List Char)} (h : List.Forall₂ (MemberText RuleText) ms ts)
    (hdepth : ∀ f ∈ fields, depth + f.2.nesting ≤ maxDepth)
    (hrules : ∀ f ∈ fields, ∀ s u, s.nesting < f.2.nesting → RuleText s u → ReadsRule (depth + 1) s u) :
    ∃ ps, List.Forall₂ ReadsPair ts ps ∧ List.Forall₂ Shows ms (viewsOfMembers depth ps) := by
  have hex : ∀ m ∈ ms, ∀ t, MemberText RuleText m t →
      ∃ p : Option String × Json.Value, ReadsPair t p ∧ Shows m (p.1, viewsOf depth p.2) := by
    intro m hm t ht
    cases ht with
    | @field key f k u t hkey hpair hu =>
      obtain ⟨hf, hset⟩ := hms.of_mem hm
      obtain ⟨v, hv, hread⟩ := exists_value hu hset (hdepth _ hf) (hrules _ hf)
      refine ⟨_, readsPair_of_spells hkey hpair hv, rfl, ?_, nofun⟩
      rintro _ ⟨⟩
      exact hread
    | other hkey hpair hu =>
      obtain ⟨v, hv, hskip⟩ := exists_skipped hu
      exact ⟨_, readsPair_of_spells hkey hpair hv, rfl, nofun, fun _ => hskip depth⟩
  obtain ⟨ps, hreads, hshows⟩ := Results.exists_between h hex
  refine ⟨ps, hreads, ?_⟩
  rw [viewsOfMembers_eq, List.forall₂_map_right_iff]
  exact hshows

end

/-- The text of a rule is read as the rule where there is room for its brackets. -/
theorem readsRule_of_text {s : RuleSource} {t : List Char} {depth : Nat} (h : RuleText s t)
    (hdepth : depth + s.nesting ≤ maxDepth) : ReadsRule depth s t := by
  -- the rules in a field lie two brackets deeper, and nest less by as much
  induction hn : s.nesting using Nat.strongRecOn generalizing s t depth with
  | _ n ih =>
    subst hn
    have hfields := nesting_lt_of_mem_fields s
    obtain @⟨s, ms, ts, u, hms, htexts, hlist⟩ := h
    have hroom : ∀ f ∈ s.fields, depth + 1 + f.2.nesting ≤ maxDepth := by
      intro f hf
      have := hfields f hf
      omega
    have hrules : ∀ f ∈ s.fields, ∀ r u, r.nesting < f.2.nesting → RuleText r u → ReadsRule (depth + 1 + 1) r u := by
      intro f hf r u hlt hr
      have := hroom f hf
      exact ih r.nesting (Nat.lt_trans hlt (hfields f hf)) hr (by omega) rfl
    obtain ⟨ps, hreads, hshows⟩ := exists_members hms htexts hroom hrules
    obtain ⟨s', hs', hsame⟩ := RuleSource.ofMembers_ok hms hshows
    refine ⟨_, Json.reads_object hlist hreads, s', ?_, hsame⟩
    show within depth (ofMembers RuleField.all RuleSource.set .closed [] .empty (viewsOfMembers (depth + 1) ps)) = _
    have hpos := nesting_pos s
    rw [within_of_lt (by omega), hs']

/-- Reading undoes writing. -/
theorem GrammarSource.ofText_written {g : GrammarSource} (hnesting : g.nesting ≤ maxDepth) {text : String}
    (h : GrammarText g text.toList) : ∃ g', GrammarSource.ofText text = .ok g' ∧ g.Same g' := by
  have hfields := nesting_lt_of_mem_grammar_fields g
  generalize hcs : text.toList = cs at h
  obtain @⟨ms, ts, a, b, u, ha, hb, hms, htexts, hlist⟩ := h
  have hroom : ∀ f ∈ g.fields, 1 + f.2.nesting ≤ maxDepth := by
    intro f hf
    have := hfields f hf
    omega
  have hrules : ∀ f ∈ g.fields, ∀ s u, s.nesting < f.2.nesting → RuleText s u → ReadsRule (1 + 1) s u := by
    intro f hf s u hlt hs
    have := hroom f hf
    exact readsRule_of_text hs (by omega)
  obtain ⟨ps, hreads, hshows⟩ := exists_members hms htexts hroom hrules
  obtain ⟨g', hg', hsame⟩ := GrammarSource.ofMembers_ok hms hshows
  refine ⟨g', ?_, hsame⟩
  have hend : Json.Delimited b := by
    have := Json.Delimited.nil.blank hb
    rwa [List.append_nil] at this
  have hvalue := (Json.reads_object hlist hreads).outcome a b ha hend
  rw [← hcs] at hvalue
  have hgrammar : GrammarSource.ofValue (.object ps .closed) = .ok g' := hg'
  simp only [GrammarSource.ofText, Json.ofText_of_outcome hvalue, hgrammar, Json.skipSpace_blank hb, List.isEmpty_nil, if_true]

def demo : GrammarSource where
  name := none
  scopeName := some "s"
  patterns := [{ RuleSource.empty with disabled := true }]
  repository := [("a", { RuleSource.empty with pattern := some "é\n" }), ("b", .empty)]

/-- The keys are in another order, one with an escape, and `v` means nothing. -/
def demoText : String :=
  " \x7b\"v\":[1e3,\x7b\x7d],\"repository\":\x7b\"b\":\x7b\x7d,\"a\":\x7b\"match\":\"\\u00E9\\n\"\x7d\x7d," ++
    "\t\"patterns\":[\x7b\"disabled\":-1\x7d],\"scope\\u004eame\" :\"s\"\x7d\n"

theorem grammarText_demo : GrammarText demo demoText.toList := by
  have hnil : Blank [] := nofun
  have htab : Blank ['\t'] := by decide
  have hspace : Blank [' '] := by decide
  have hline : Blank ['\n'] := by decide
  -- texts of the parts, from the inside out
  have haccent : HexText ['0', '0', 'E', '9'] 'é'.toNat :=
    .mk (i := 0) (j := 0) (k := 14) (l := 9) (.lower (by decide)) (.lower (by decide)) (.upper (by decide)) (.lower (by decide))
  have hletter : HexText ['0', '0', '4', 'e'] 'N'.toNat :=
    .mk (i := 0) (j := 0) (k := 4) (l := 14) (.lower (by decide)) (.lower (by decide)) (.lower (by decide)) (.lower (by decide))
  have hpattern : Spells "\\u00E9\\n".toList "é\n".toList :=
    .unicode haccent (.short (e := 'n') (by decide) .nil)
  have hscope : Spells "scope\\u004eame".toList "scopeName".toList := by
    refine .plain ?_ ?_ ?_ (.plain ?_ ?_ ?_ (.plain ?_ ?_ ?_ (.plain ?_ ?_ ?_ (.plain ?_ ?_ ?_
      (.unicode hletter (spells_self ?_)))))) <;> decide
  have hempty : RuleText .empty ['{', '}'] :=
    @RuleText.mk _ [] _ _ ⟨[], nofun, .refl _⟩ .nil (.none hnil)
  have hmatch : RuleText { RuleSource.empty with pattern := some "é\n" } "\x7b\"match\":\"\\u00E9\\n\"\x7d".toList :=
    @RuleText.mk _ [("match", some (.text (some "é\n")))] _ _ ⟨[], nofun, .refl _⟩
      (.cons (.field (spells_self (by decide)) (.mk hnil hnil) (.text hpattern)) .nil) (.one hnil hnil)
  have hdisabled : RuleText { RuleSource.empty with disabled := true } "\x7b\"disabled\":-1\x7d".toList :=
    @RuleText.mk _ [("disabled", some (.flag true))] _ _ ⟨[], nofun, .refl _⟩
      (.cons (.field (spells_self (by decide)) (.mk hnil hnil)
        (.integer (i := -1) (by decide) (by decide) (by decide))) .nil) (.one hnil hnil)
  have hnumber : WellFormed ['1', 'e', '3'] :=
    .number (@NumberText.mk [] ['1'] [] ['e', '3'] (by decide) ⟨nofun, by simp⟩ (by decide) .none
      (@PowerText.some 'e' [] ['3'] (by decide) (by decide) ⟨nofun, by simp⟩))
  have hobject : WellFormed ['{', '}'] :=
    @WellFormed.object [] [] [] nofun nofun .nil (.none hnil)
  have hother : WellFormed "[1e3,\x7b\x7d]".toList :=
    @WellFormed.array [['1', 'e', '3'], ['{', '}']] _ (by simp [hnumber, hobject]) (.more hnil hnil (.one hnil hnil))
  have hrepository : FieldText RuleText (.map demo.repository) "\x7b\"b\":\x7b\x7d,\"a\":\x7b\"match\":\"\\u00E9\\n\"\x7d\x7d".toList :=
    .map (by decide) (.swap _ _ _)
      (.cons (.mk (spells_self (by decide)) (.mk hnil hnil) hempty)
        (.cons (.mk (spells_self (by decide)) (.mk hnil hnil) hmatch) .nil))
      (.more hnil hnil (.one hnil hnil))
  have hpatterns : FieldText RuleText (.rules demo.patterns) "[\x7b\"disabled\":-1\x7d]".toList :=
    .rules (.cons hdisabled .nil) (.one hnil hnil)
  have hperm := List.reverse_perm ((demo.fields.filter fun f => f.2.isSet).map (fun f => (f.1, some f.2)) ++
    ["v"].map fun key => (key, none))
  have hms : MembersOf demo.fields [("v", none), ("repository", some (.map demo.repository)),
      ("patterns", some (.rules demo.patterns)), ("scopeName", some (.text (some "s")))] :=
    ⟨["v"], by decide, hperm⟩
  exact .mk hspace hline hms
    (.cons (.other (spells_self (by decide)) (.mk hnil hnil) hother)
      (.cons (.field (spells_self (by decide)) (.mk hnil hnil) hrepository)
        (.cons (.field (spells_self (by decide)) (.mk hnil hnil) hpatterns)
          (.cons (.field hscope (.mk hspace hnil) (.text (spells_self (by decide)))) .nil))))
    (.more hnil hnil (.more hnil hnil (.more htab hnil (.one hnil hnil))))

theorem ofText_demo : demo.nesting ≤ maxDepth ∧ GrammarText demo demoText.toList ∧
    ∃ g', GrammarSource.ofText demoText = .ok g' ∧ demo.Same g' :=
  ⟨by decide, grammarText_demo, GrammarSource.ofText_written (by decide) grammarText_demo⟩

end Highlight.Grammar
