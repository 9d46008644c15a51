import Highlight.Files.Discovery
import Mathlib.Data.List.Lex
import Mathlib.Data.Prod.Lex
import Mathlib.Data.String.Basic

/-!
# Paths by their components

The path of an entry has the components of its directory and one more. So below one directory the
components tell the names apart that lead to a file, and sorting paths by components leaves no
choice.
-/

namespace Highlight.Files.Path

/-! ## The order -/

namespace Component

theorem before_iff {a b : Component} : a.before b = true ↔ toLex (a.rank, a.text) < toLex (b.rank, b.text) := by
  unfold before
  rw [Prod.Lex.toLex_lt_toLex]
  simp

theorem eq_of_rank_text {a b : Component} (hrank : a.rank = b.rank) (htext : a.text = b.text) : a = b := by
  cases a with
  | root => cases b <;> simp_all [rank]
  | current => cases b <;> simp_all [rank]
  | parent => cases b <;> simp_all [rank]
  | normal n =>
    cases b with
    | normal m => exact congrArg normal htext
    | root => cases hrank
    | current => cases hrank
    | parent => cases hrank

theorem before_trans {a b c : Component} (hab : a.before b = true) (hbc : b.before c = true) : a.before c = true := by
  rw [before_iff] at hab hbc ⊢
  exact hab.trans hbc

instance : Std.Trichotomous fun a b : Component => a.before b = true where
  trichotomous a b hab hba := by
    rw [before_iff] at hab hba
    have heq := le_antisymm (not_lt.mp hba) (not_lt.mp hab)
    rw [toLex_inj, Prod.mk.injEq] at heq
    exact eq_of_rank_text heq.1 heq.2

instance : Std.Asymm fun a b : Component => a.before b = true where
  asymm a b hab hba := by
    rw [before_iff] at hab hba
    exact lt_asymm hab hba

end Component

/-- The first component in which the paths differ comes before the other one, or is missing. -/
def Before (p q : String) : Prop :=
  List.Lex (fun a b => a.before b = true) (components p) (components q)

theorem listLe_iff : ∀ {as bs : List Component},
    listLe as bs = true ↔ as = bs ∨ List.Lex (fun a b => a.before b = true) as bs
  | [], [] => by simp [listLe]
  | [], b :: bs => by simp [listLe]
  | a :: as, [] => by simp [listLe]
  | a :: as, b :: bs => by
    rw [listLe, List.cons_lex_cons_iff, Bool.or_eq_true, Bool.and_eq_true, beq_iff_eq, listLe_iff, List.cons.injEq]
    constructor
    · rintro (h | ⟨rfl, rfl | h⟩)
      · exact .inr (.inl h)
      · exact .inl ⟨rfl, rfl⟩
      · exact .inr (.inr ⟨rfl, h⟩)
    · rintro (⟨rfl, rfl⟩ | h | ⟨rfl, h⟩)
      · exact .inr ⟨rfl, .inl rfl⟩
      · exact .inl h
      · exact .inr ⟨rfl, .inr h⟩

theorem le_iff {p q : String} : le p q = true ↔ components p = components q ∨ Before p q :=
  listLe_iff

theorem le_trans {p q r : String} (hpq : le p q = true) (hqr : le q r = true) : le p r = true := by
  rw [le_iff] at hpq hqr ⊢
  unfold Before at *
  rcases hpq with hpq | hpq
  · rw [hpq]
    exact hqr
  · rcases hqr with hqr | hqr
    · rw [← hqr]
      exact .inr hpq
    · exact .inr (List.lex_trans Component.before_trans hpq hqr)

theorem le_total (p q : String) : (le p q || le q p) = true := by
  rw [Bool.or_eq_true, le_iff, le_iff]
  unfold Before
  rcases trichotomous_of (List.Lex fun a b : Component => a.before b = true) (components p) (components q) with h | h | h
  · exact .inl (.inr h)
  · exact .inl (.inl h)
  · exact .inr (.inr h)

theorem Before.asymm {p q : String} (h : Before p q) : ¬Before q p :=
  asymm_of (List.Lex fun a b : Component => a.before b = true) h

theorem Before.ne {p q : String} (h : Before p q) : p ≠ q := by
  rintro rfl
  exact h.asymm h

/-- Paths with components of their own are sorted strictly. -/
theorem pairwise_mergeSort {ps : List String} (hps : ps.Pairwise fun p q => components p ≠ components q) :
    (ps.mergeSort le).Pairwise Before := by
  have hle : (ps.mergeSort le).Pairwise fun p q => le p q = true := by
    apply List.pairwise_mergeSort
    · intro p q r
      exact le_trans
    · exact le_total
  have hne := hps.perm (List.mergeSort_perm ps le).symm Ne.symm
  refine (hle.and hne).imp ?_
  rintro p q ⟨h, hpq⟩
  rcases le_iff.mp h with heq | hbefore
  · exact absurd heq hpq
  · exact hbefore

theorem eq_of_pairwise {ps qs : List String} (hps : ps.Pairwise Before) (hqs : qs.Pairwise Before)
    (h : ∀ p, p ∈ ps ↔ p ∈ qs) : ps = qs := by
  refine List.Perm.eq_of_pairwise ?_ hps hqs ?_
  · intro p q _ _ hpq hqp
    exact absurd hqp hpq.asymm
  · exact (List.perm_ext_iff_of_nodup (hps.imp Before.ne) (hqs.imp Before.ne)).mpr h

/-! ## Paths of entries -/

structure EntryName (name : String) : Prop where
  nonempty : name ≠ ""
  notCurrent : name ≠ "."
  notParent : name ≠ ".."
  noSlash : '/' ∉ name.toList

instance (name : String) : Decidable (EntryName name) :=
  decidable_of_iff (name ≠ "" ∧ name ≠ "." ∧ name ≠ ".." ∧ '/' ∉ name.toList)
    ⟨fun ⟨hne, hcurrent, hparent, hslash⟩ => ⟨hne, hcurrent, hparent, hslash⟩,
      fun h => ⟨h.nonempty, h.notCurrent, h.notParent, h.noSlash⟩⟩

theorem EntryName.ofPiece? {name : String} (h : EntryName name) :
    Component.ofPiece? name.toList = some (.normal name) := by
  unfold Component.ofPiece?
  split
  · rename_i hname
    exact absurd (String.toList_inj.mp hname) h.nonempty
  · rename_i hname
    exact absurd (String.toList_inj.mp hname) h.notCurrent
  · rename_i hname
    exact absurd (String.toList_inj.mp hname) h.notParent
  · rw [String.ofList_toList]

theorem start_singleton (c : Char) : start [c] = if c = '/' then [.root] else if c = '.' then [.current] else [] := by
  unfold start
  split <;> simp_all

theorem start_cons_cons (c d : Char) (cs : List Char) :
    start (c :: d :: cs) = if c = '/' then [.root] else if c = '.' ∧ d = '/' then [.current] else [] := by
  unfold start
  split <;> simp_all

theorem start_append_slash (cs rest : List Char) : start (cs ++ '/' :: rest) = start (cs ++ ['/']) := by
  match cs with
  | [] => rfl
  | [c] => exact (start_cons_cons c '/' rest).trans (start_cons_cons c '/' []).symm
  | c :: d :: cs => exact (start_cons_cons c d (cs ++ '/' :: rest)).trans (start_cons_cons c d (cs ++ ['/'])).symm

theorem start_slash {cs : List Char} (hcs : cs ≠ []) : start (cs ++ ['/']) = start cs := by
  match cs with
  | [c] => simp [start_cons_cons, start_singleton]
  | c :: d :: cs => exact (start_cons_cons c d (cs ++ ['/'])).trans (start_cons_cons c d cs).symm

theorem components_join {dir name : String} (hdir : dir ≠ "") (hname : EntryName name) :
    components (join dir name) = components dir ++ [.normal name] := by
  have hpiece : (name.toList.splitOn '/').filterMap Component.ofPiece? = [.normal name] := by
    rw [List.splitOn_eq_singleton hname.noSlash, List.filterMap_cons_some hname.ofPiece?]
    rfl
  have hcs : dir.toList ≠ [] := fun h => hdir (String.toList_inj.mp h)
  have hempty : dir.isEmpty = false := by simpa using hdir
  unfold components join
  rw [hempty, Bool.false_or]
  by_cases hslash : dir.toList.getLast? = some '/'
  · obtain ⟨cs, hlist⟩ := List.getLast?_eq_some_iff.mp hslash
    rw [if_pos (by simpa using hslash), String.toList_append, hlist, List.append_assoc, List.singleton_append,
      start_append_slash, List.splitOn_append_cons_self, List.splitOn_append_cons_self, List.filterMap_append,
      List.filterMap_append, hpiece, List.append_assoc]
    simp [Component.ofPiece?]
  · have hlist : (dir ++ "/" ++ name).toList = dir.toList ++ '/' :: name.toList := by
      rw [String.toList_append, String.toList_append, List.append_assoc]
      rfl
    rw [if_neg (by simpa using hslash), hlist, start_append_slash, start_slash hcs, List.splitOn_append_cons_self,
      List.filterMap_append, hpiece, List.append_assoc]

def under (dir : String) (names : List String) : String :=
  names.foldl join dir

theorem join_ne_empty {dir name : String} (hname : EntryName name) : join dir name ≠ "" := by
  intro h
  unfold join at h
  split at h
  · exact hname.nonempty (String.append_eq_empty_iff.mp h).2
  · exact hname.nonempty (String.append_eq_empty_iff.mp h).2

theorem components_under : ∀ {names : List String} {dir : String}, dir ≠ "" → (∀ name ∈ names, EntryName name) →
    components (under dir names) = components dir ++ names.map .normal
  | [], dir, _, _ => (List.append_nil _).symm
  | name :: names, dir, hdir, hnames => by
    obtain ⟨hname, hrest⟩ := List.forall_mem_cons.mp hnames
    show components (under (join dir name) names) = _
    rw [components_under (join_ne_empty hname) hrest, components_join hdir hname, List.append_assoc]
    rfl

/-- Below one directory, different names lead to different paths. -/
theorem under_injective {dir : String} {names names' : List String} (hdir : dir ≠ "")
    (hnames : ∀ name ∈ names, EntryName name) (hnames' : ∀ name ∈ names', EntryName name)
    (h : under dir names = under dir names') : names = names' := by
  have hcomponents := congrArg components h
  rw [components_under hdir hnames, components_under hdir hnames'] at hcomponents
  refine List.map_injective_iff.mpr ?_ (List.append_cancel_left hcomponents)
  intro n m
  exact Component.normal.inj

end Highlight.Files.Path
