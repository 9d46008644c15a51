import Highlight.Proofs.VisibleFiles
import Mathlib.Data.List.Nodup

/-!
# Searches and the order of listings

A file system lists the entries of a directory in an order of its own. Trees that differ in nothing
else show the same files at the same places, and a path that leads to a directory of one of them
leads to its counterpart in the other. A search finds just the files that are shown, in the order of
their paths, so it gives the same for both.
-/

namespace Highlight.Files

open Highlight.Files.Path (EntryName under)

namespace Node

/-- The trees are the same, but for the order in which directories are listed. -/
inductive Relisted : Node → Node → Prop
  | file (bytes : ByteArray) : Relisted (.file bytes) (.file bytes)
  | directory {entries entries' : List (String × Node)} (names : (entries.map Prod.fst).Perm (entries'.map Prod.fst))
      (nodes : ∀ e ∈ entries, ∀ e' ∈ entries', e.1 = e'.1 → Relisted e.2 e'.2) :
      Relisted (.directory entries) (.directory entries')

section

variable {entries entries' : List (String × Node)} {node node' found : Node} {name : String} {dirs names : List String}

theorem Relisted.symm (h : node.Relisted node') : node'.Relisted node := by
  induction h with
  | file bytes => exact .file bytes
  | directory names _ ih =>
    refine .directory names.symm ?_
    intro e' he' e he heq
    exact ih e he e' he' heq.symm

theorem WellFormed.relisted_self (h : node.WellFormed) : node.Relisted node := by
  induction h with
  | file bytes => exact .file bytes
  | directory distinct _ _ ih =>
    refine .directory (.refl _) ?_
    intro e he e' he' heq
    rw [← List.inj_on_of_nodup_map distinct he he' heq]
    exact ih e he

theorem WellFormed.relisted_of_perm (h : (Node.directory entries).WellFormed) (hperm : entries.Perm entries') :
    (Node.directory entries).Relisted (Node.directory entries') := by
  cases h with
  | directory distinct _ nodes =>
    refine .directory (hperm.map Prod.fst) ?_
    intro e he e' he' heq
    rw [← List.inj_on_of_nodup_map distinct he (hperm.mem_iff.mpr he') heq]
    exact (nodes e he).relisted_self

theorem Relisted.exists_entry (h : (Node.directory entries).Relisted (Node.directory entries')) {e : String × Node}
    (he : e ∈ entries) : ∃ e' ∈ entries', e'.1 = e.1 ∧ e.2.Relisted e'.2 := by
  cases h with
  | directory names nodes =>
    obtain ⟨e', he', heq⟩ := List.mem_map.mp (names.mem_iff.mp (List.mem_map_of_mem he))
    exact ⟨e', he', heq, nodes e he e' he' heq.symm⟩

theorem Relisted.wellFormed (h : node.Relisted node') (hnode : node.WellFormed) : node'.WellFormed := by
  induction h with
  | file bytes => exact .file bytes
  | @directory entries entries' names nodes ih =>
    have hback := (Relisted.directory names nodes).symm
    cases hnode with
    | directory distinct entryNames below =>
      refine .directory (names.nodup_iff.mp distinct) ?_ ?_
      · intro e' he'
        obtain ⟨e, he, heq, _⟩ := hback.exists_entry he'
        rw [← heq]
        exact entryNames e he
      · intro e' he'
        obtain ⟨e, he, heq, _⟩ := hback.exists_entry he'
        exact ih e he e' he' heq (below e he)

theorem Relisted.lookup (h : (Node.directory entries).Relisted (Node.directory entries'))
    (hentries : (Node.directory entries).WellFormed) (hlookup : entries.lookup name = some node) :
    ∃ node', entries'.lookup name = some node' ∧ node.Relisted node' := by
  cases hentries with
  | directory distinct entryNames below =>
    obtain ⟨⟨_, node'⟩, he', rfl, hnode⟩ := h.exists_entry ((lookup_eq_some_iff distinct).mp hlookup)
    cases h with
    | directory names nodes => exact ⟨node', (lookup_eq_some_iff (names.nodup_iff.mp distinct)).mpr he', hnode⟩

theorem Relisted.at? (h : node.Relisted node') (hnode : node.WellFormed) (hfound : node.at? names = some found) :
    ∃ found', node'.at? names = some found' ∧ found.Relisted found' := by
  induction names generalizing node node' with
  | nil =>
    rw [Node.at?, Option.some.injEq] at hfound
    rw [← hfound]
    exact ⟨node', rfl, h⟩
  | cons name names ih =>
    cases node with
    | file bytes => cases hfound
    | directory entries =>
      obtain ⟨next, hlookup, hbelow⟩ := Option.bind_eq_some_iff.mp hfound
      cases node' with
      | file bytes => cases h
      | directory entries' =>
        obtain ⟨next', hlookup', hnext⟩ := h.lookup hnode hlookup
        obtain ⟨found', hfound', hrelisted⟩ := ih hnext (hnode.of_lookup hlookup).2 hbelow
        exact ⟨found', Option.bind_eq_some_iff.mpr ⟨next', hlookup', hfound'⟩, hrelisted⟩

theorem Shows.relisted (hshows : node.Shows dirs name) (h : node.Relisted node') (hnode : node.WellFormed) :
    node'.Shows dirs name := by
  obtain ⟨bytes, hfile⟩ := hshows.file
  obtain ⟨found', hfile', hfound⟩ := h.at? hnode hfile
  cases hfound with
  | file => exact ⟨⟨bytes, hfile'⟩, hshows.visible, hshows.built⟩

end

end Node

/-! ## Paths in relisted trees -/

theorem follow_relisted {above above' : List Node} {node node' found : Node} {pieces : List (List Char)}
    (habove : List.Forall₂ (fun dir dir' => dir.WellFormed ∧ dir.Relisted dir') above above')
    (hnode : node.WellFormed) (h : node.Relisted node') (hfollow : follow above node pieces = .ok found) :
    ∃ found', follow above' node' pieces = .ok found' ∧ found.WellFormed ∧ found.Relisted found' := by
  -- a way up leads to one of the directories above, so these have to be relisted too
  induction pieces generalizing above above' node node' with
  | nil =>
    rw [follow, Except.ok.injEq] at hfollow
    rw [← hfollow]
    exact ⟨node', by rw [follow], hnode, h⟩
  | cons piece pieces ih =>
    cases h with
    | file bytes =>
      rw [follow] at hfollow
      cases hfollow
    | @directory entries entries' names nodes =>
      have h := Node.Relisted.directory names nodes
      unfold follow at hfollow ⊢
      dsimp only at hfollow ⊢
      split at hfollow
      · exact ih habove hnode h hfollow
      · exact ih habove hnode h hfollow
      · cases habove with
        | nil => exact ih .nil hnode h hfollow
        | cons hdir hdirs => exact ih hdirs hdir.1 hdir.2 hfollow
      · cases hlookup : entries.lookup (String.ofList piece) with
        | none =>
          rw [hlookup] at hfollow
          cases hfollow
        | some next =>
          rw [hlookup] at hfollow
          obtain ⟨next', hlookup', hnext⟩ := h.lookup hnode hlookup
          obtain ⟨found', hfound'⟩ := ih (.cons ⟨hnode, h⟩ habove) (hnode.of_lookup hlookup).2 hnext hfollow
          refine ⟨found', ?_, hfound'.2⟩
          rw [hlookup']
          exact hfound'.1

/-! ## Kinds of files -/

theorem extension?_of_fixture {name : String} (h : Kind.fixture.acceptsName name = true) :
    Path.extension? name = some sqlExtension := by
  obtain ⟨stem, hstem⟩ := List.isSuffixOf_iff_suffix.mp h
  have hname : name.toList.reverse = fixtureEnding.toList.reverse ++ stem.reverse := by
    rw [← hstem, List.reverse_append]
  unfold Path.extension?
  rw [hname]
  rfl

theorem acceptsName_sample {name : String} : Kind.sample.acceptsName name = true ↔
    Path.extension? name = some sqlExtension ∧ Kind.fixture.acceptsName name = false := by
  simp [Kind.acceptsName]

/-- Fixtures and samples are the two kinds of SQL files. -/
theorem acceptsName_or {name : String} : Kind.fixture.acceptsName name = true ∨ Kind.sample.acceptsName name = true ↔
    Path.extension? name = some sqlExtension := by
  rw [acceptsName_sample]
  constructor
  · rintro (h | h)
    · exact extension?_of_fixture h
    · exact h.1
  · intro h
    cases hfixture : Kind.fixture.acceptsName name with
    | true => exact .inl rfl
    | false => exact .inr ⟨h, rfl⟩

/-! ## Searches -/

namespace FileSystem

variable {fs fs' : FileSystem} {kind : Kind} {root name p : String} {dirs : List String}

structure Relisted (fs fs' : FileSystem) : Prop where
  root : fs.root.Relisted fs'.root
  workingDirectory : fs'.workingDirectory = fs.workingDirectory

def Shows (fs : FileSystem) (root : String) (dirs : List String) (name : String) : Prop :=
  ∃ entries, fs.find root = .ok (.directory entries) ∧ (Node.directory entries).Shows dirs name

theorem Relisted.symm (h : fs.Relisted fs') : fs'.Relisted fs :=
  ⟨h.root.symm, h.workingDirectory.symm⟩

theorem find_relisted {found : Node} (hfs : fs.root.WellFormed) (h : fs.Relisted fs')
    (hfind : fs.find root = .ok found) : ∃ found', fs'.find root = .ok found' ∧ found.WellFormed ∧ found.Relisted found' := by
  unfold find at hfind ⊢
  rw [h.workingDirectory]
  split at hfind
  · cases hfind
  · exact follow_relisted .nil hfs h.root hfind
  · exact follow_relisted .nil hfs h.root hfind

theorem wellFormed_of_find {found : Node} (hfs : fs.root.WellFormed) (hfind : fs.find root = .ok found) :
    found.WellFormed := by
  obtain ⟨_, _, hfound, _⟩ := find_relisted hfs ⟨hfs.relisted_self, rfl⟩ hfind
  exact hfound

theorem ne_empty_of_find {found : Node} (hfind : fs.find root = .ok found) : root ≠ "" := by
  rintro rfl
  cases hfind

theorem Shows.relisted (hshows : fs.Shows root dirs name) (hfs : fs.root.WellFormed) (h : fs.Relisted fs') :
    fs'.Shows root dirs name := by
  obtain ⟨entries, hfind, hentries⟩ := hshows
  obtain ⟨found', hfind', hwf, hfound⟩ := find_relisted hfs h hfind
  have hshows' := hentries.relisted hfound hwf
  cases hfound with
  | directory names nodes => exact ⟨_, hfind', hshows'⟩

theorem mem_discover (hfs : fs.root.WellFormed) : p ∈ fs.discover kind root ↔
    ∃ dirs name, fs.Shows root dirs name ∧ kind.acceptsName name = true ∧ p = under root (dirs ++ [name]) := by
  unfold discover
  split
  · rename_i entries hfind
    have hwf := wellFormed_of_find hfs hfind
    rw [List.mem_mergeSort]
    refine (mem_collect hwf).trans ?_
    constructor
    · rintro ⟨dirs, name, hshows, hrest⟩
      exact ⟨dirs, name, ⟨entries, hfind, hshows⟩, hrest⟩
    · rintro ⟨dirs, name, ⟨entries', hfind', hshows⟩, hrest⟩
      rw [hfind, Except.ok.injEq, Node.directory.injEq] at hfind'
      exact ⟨dirs, name, hfind' ▸ hshows, hrest⟩
  · rename_i hnot
    constructor
    · intro hp
      cases hp
    · rintro ⟨dirs, name, ⟨entries, hfind, _⟩, _⟩
      exact absurd hfind (hnot entries)

theorem pairwise_discover (hfs : fs.root.WellFormed) : (fs.discover kind root).Pairwise Path.Before := by
  unfold discover
  split
  · rename_i entries hfind
    exact Path.pairwise_mergeSort (pairwise_collect (wellFormed_of_find hfs hfind) (ne_empty_of_find hfind))
  · exact .nil

theorem discover_relisted (hfs : fs.root.WellFormed) (h : fs.Relisted fs') :
    fs'.discover kind root = fs.discover kind root := by
  have hfs' := h.root.wellFormed hfs
  refine Path.eq_of_pairwise (pairwise_discover hfs') (pairwise_discover hfs) ?_
  intro p
  rw [mem_discover hfs', mem_discover hfs]
  constructor
  · rintro ⟨dirs, name, hshows, hrest⟩
    exact ⟨dirs, name, hshows.relisted hfs' h.symm, hrest⟩
  · rintro ⟨dirs, name, hshows, hrest⟩
    exact ⟨dirs, name, hshows.relisted hfs h, hrest⟩

theorem Shows.name_eq {dirs' : List String} {name' : String} (h : fs.Shows root dirs name) (hfs : fs.root.WellFormed)
    (h' : fs.Shows root dirs' name') (heq : under root (dirs ++ [name]) = under root (dirs' ++ [name'])) :
    name = name' := by
  obtain ⟨entries, hfind, hshows⟩ := h
  obtain ⟨entries', hfind', hshows'⟩ := h'
  have hnames := (wellFormed_of_find hfs hfind).entryNames hshows
  have hnames' := (wellFormed_of_find hfs hfind').entryNames hshows'
  have happend := Path.under_injective (ne_empty_of_find hfind) hnames hnames' heq
  exact (List.append_singleton_inj.mp happend).2

theorem disjoint_discover (hfs : fs.root.WellFormed) :
    (fs.discover .fixture root).Disjoint (fs.discover .sample root) := by
  intro p hfixture hsample
  obtain ⟨dirs, name, hshows, haccepts, rfl⟩ := (mem_discover hfs).mp hfixture
  obtain ⟨dirs', name', hshows', haccepts', heq⟩ := (mem_discover hfs).mp hsample
  rw [← hshows.name_eq hfs hshows' heq, acceptsName_sample, haccepts] at haccepts'
  cases haccepts'.2

/-- A search finds exactly the files of its kind that are shown, in the order of their paths and in
whatever order directories are listed. -/
theorem discover_exact (fs : FileSystem) (hfs : fs.root.WellFormed) (root : String) :
    (∀ kind : Kind,
      (fs.discover kind root).Pairwise Path.Before ∧ (fs.discover kind root).Nodup ∧
      (∀ p, p ∈ fs.discover kind root ↔
        ∃ dirs name, fs.Shows root dirs name ∧ kind.acceptsName name = true ∧ p = under root (dirs ++ [name])) ∧
      ∀ fs', fs.Relisted fs' → fs'.discover kind root = fs.discover kind root) ∧
    (fs.discover .fixture root).Disjoint (fs.discover .sample root) ∧
    ∀ p, p ∈ fs.discover .fixture root ∨ p ∈ fs.discover .sample root ↔
      ∃ dirs name, fs.Shows root dirs name ∧ Path.extension? name = some sqlExtension ∧
        p = under root (dirs ++ [name]) := by
  refine ⟨?_, disjoint_discover hfs, ?_⟩
  · intro kind
    have hsorted : (fs.discover kind root).Pairwise Path.Before := pairwise_discover hfs
    refine ⟨hsorted, hsorted.imp Path.Before.ne, ?_, ?_⟩
    · intro p
      exact mem_discover hfs
    · intro fs' h
      exact discover_relisted hfs h
  · intro p
    rw [mem_discover hfs, mem_discover hfs]
    constructor
    · rintro (⟨dirs, name, hshows, haccepts, hp⟩ | ⟨dirs, name, hshows, haccepts, hp⟩)
      · exact ⟨dirs, name, hshows, acceptsName_or.mp (.inl haccepts), hp⟩
      · exact ⟨dirs, name, hshows, acceptsName_or.mp (.inr haccepts), hp⟩
    · rintro ⟨dirs, name, hshows, hextension, hp⟩
      rcases acceptsName_or.mpr hextension with haccepts | haccepts
      · exact .inl ⟨dirs, name, hshows, haccepts, hp⟩
      · exact .inr ⟨dirs, name, hshows, haccepts, hp⟩

/-! A tree with a build directory, a hidden file and a directory that is named like a fixture. -/

def mixed : FileSystem where
  root := .directory [
    ("target", .directory [("x.test.sql", .file .empty)]),
    (".hidden.sql", .file .empty),
    ("b-a.sql", .file .empty),
    ("b", .directory [("z.sql", .file .empty)]),
    ("d.test.sql", .directory [("a.test.sql", .file .empty)])]
  workingDirectory := []

theorem wellFormed_mixed : mixed.root.WellFormed := by
  have hsingle : ∀ name, EntryName name → (Node.directory [(name, .file .empty)]).WellFormed := by
    intro name hname
    refine .directory (List.nodup_singleton name) ?_ ?_
    · simp [hname]
    · simp [Node.WellFormed.file]
  refine .directory (by decide) (by decide) ?_
  simp only [List.forall_mem_cons]
  exact ⟨hsingle _ (by decide), .file _, .file _, hsingle _ (by decide), hsingle _ (by decide), List.forall_mem_nil _⟩

theorem discover_fixtures_mixed : mixed.discover .fixture "." = ["./d.test.sql/a.test.sql"] := by
  have hfiles : collect .fixture "." mixed.root.entries = ["./d.test.sql/a.test.sql"] := by decide +kernel
  show (collect .fixture "." mixed.root.entries).mergeSort Path.le = _
  rw [hfiles, List.mergeSort_singleton]

theorem discover_samples_mixed : mixed.discover .sample "." = ["./b/z.sql", "./b-a.sql"] := by
  have hfiles : collect .sample "." mixed.root.entries = ["./b-a.sql", "./b/z.sql"] := by decide +kernel
  have hle : Path.le "./b-a.sql" "./b/z.sql" = false := by decide +kernel
  show (collect .sample "." mixed.root.entries).mergeSort Path.le = _
  rw [hfiles]
  simp [List.mergeSort, hle]

def mixedBackwards : FileSystem :=
  { mixed with root := .directory mixed.root.entries.reverse }

theorem relisted_mixedBackwards : mixed.Relisted mixedBackwards where
  root := wellFormed_mixed.relisted_of_perm (List.reverse_perm _).symm
  workingDirectory := rfl

theorem discover_mixedBackwards : mixed.root.WellFormed ∧ mixed.Relisted mixedBackwards ∧
    mixedBackwards.discover .fixture "." = ["./d.test.sql/a.test.sql"] ∧
    mixedBackwards.discover .sample "." = ["./b/z.sql", "./b-a.sql"] := by
  obtain ⟨hkinds, _⟩ := discover_exact mixed wellFormed_mixed "."
  refine ⟨wellFormed_mixed, relisted_mixedBackwards, ?_, ?_⟩
  · rw [(hkinds .fixture).2.2.2 _ relisted_mixedBackwards, discover_fixtures_mixed]
  · rw [(hkinds .sample).2.2.2 _ relisted_mixedBackwards, discover_samples_mixed]

end FileSystem

end Highlight.Files
