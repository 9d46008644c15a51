import Highlight.Proofs.PathOrder

/-!
# The files that a search finds

A search goes through a tree entry by entry, but what it finds can be told from the relative paths
of the files alone: those without hidden parts that lead through no build directory. Each of them is
found once, so in the order of paths the result does not depend on how directories are listed.
-/

namespace Highlight.Files

open Highlight.Files.Path (EntryName under components)

namespace Node

inductive WellFormed : Node → Prop
  | file (bytes : ByteArray) : WellFormed (.file bytes)
  | directory {entries : List (String × Node)} (distinct : (entries.map Prod.fst).Nodup)
      (names : ∀ e ∈ entries, EntryName e.1) (nodes : ∀ e ∈ entries, WellFormed e.2) : WellFormed (.directory entries)

def at? : Node → List String → Option Node
  | node, [] => some node
  | .file _, _ :: _ => none
  | .directory entries, name :: names => (entries.lookup name).bind fun node => node.at? names

/-- Below the node, the directories lead to a file of this name, and no part of the way is hidden
or goes through a build directory. -/
structure Shows (node : Node) (dirs : List String) (name : String) : Prop where
  file : ∃ bytes, node.at? (dirs ++ [name]) = some (.file bytes)
  visible : ∀ part ∈ dirs ++ [name], isHidden part = false
  built : buildDirectory ∉ dirs

/-! ## Entries -/

section

variable {entries entries' : List (String × Node)} {name : String} {node : Node} {dirs names : List String}

theorem lookup_eq_some_iff (h : (entries.map Prod.fst).Nodup) :
    entries.lookup name = some node ↔ (name, node) ∈ entries := by
  induction entries with
  | nil => simp
  | cons e entries ih =>
    rw [List.map_cons, List.nodup_cons] at h
    rw [List.lookup_cons, List.mem_cons]
    by_cases he : name = e.1
    · have hnot : (name, node) ∉ entries := fun hmem => h.1 (he ▸ List.mem_map_of_mem hmem)
      rw [he, beq_self_eq_true]
      constructor
      · rintro ⟨rfl⟩
        exact .inl rfl
      · rintro (heq | hmem)
        · rw [← heq]
        · exact absurd (he ▸ hmem) hnot
    · rw [beq_eq_false_iff_ne.mpr he, ih h.2]
      constructor
      · exact .inr
      · rintro (heq | hmem)
        · exact absurd (congrArg Prod.fst heq) he
        · exact hmem

theorem shows_nil_iff : (directory entries).Shows [] name ↔
    (∃ bytes, entries.lookup name = some (.file bytes)) ∧ isHidden name = false := by
  have hat : (directory entries).at? [name] = entries.lookup name := by
    rw [at?]
    cases entries.lookup name with
    | none => rfl
    | some node => rfl
  constructor
  · intro h
    obtain ⟨bytes, hfile⟩ := h.file
    exact ⟨⟨bytes, hat ▸ hfile⟩, h.visible name (List.mem_cons_self ..)⟩
  · rintro ⟨⟨bytes, hfile⟩, hvisible⟩
    refine ⟨⟨bytes, hat ▸ hfile⟩, ?_, List.not_mem_nil⟩
    intro part hpart
    rw [List.mem_singleton.mp hpart]
    exact hvisible

theorem shows_cons_iff {d : String} : (directory entries).Shows (d :: dirs) name ↔
    isHidden d = false ∧ d ≠ buildDirectory ∧ ∃ node, entries.lookup d = some node ∧ node.Shows dirs name := by
  constructor
  · intro h
    obtain ⟨bytes, hfile⟩ := h.file
    obtain ⟨node, hnode, hat⟩ := Option.bind_eq_some_iff.mp hfile
    obtain ⟨hd, hvisible⟩ := List.forall_mem_cons.mp h.visible
    have hbuilt := h.built
    rw [List.mem_cons, not_or] at hbuilt
    exact ⟨hd, Ne.symm hbuilt.1, node, hnode, ⟨bytes, hat⟩, hvisible, hbuilt.2⟩
  · rintro ⟨hd, hne, node, hnode, ⟨bytes, hat⟩, hvisible, hbuilt⟩
    refine ⟨⟨bytes, Option.bind_eq_some_iff.mpr ⟨node, hnode, hat⟩⟩, List.forall_mem_cons.mpr ⟨hd, hvisible⟩, ?_⟩
    rw [List.mem_cons, not_or]
    exact ⟨Ne.symm hne, hbuilt⟩

theorem not_shows_file {bytes : ByteArray} : ¬(Node.file bytes).Shows dirs name := by
  intro h
  obtain ⟨bytes', hfile⟩ := h.file
  cases dirs with
  | nil => cases hfile
  | cons d dirs => cases hfile

theorem WellFormed.of_lookup (h : (Node.directory entries).WellFormed) (hlookup : entries.lookup name = some node) :
    EntryName name ∧ node.WellFormed := by
  cases h with
  | directory distinct names nodes =>
    have hmem := (lookup_eq_some_iff distinct).mp hlookup
    exact ⟨names _ hmem, nodes _ hmem⟩

theorem WellFormed.entryNames (h : node.WellFormed) (hshows : node.Shows dirs name) :
    ∀ part ∈ dirs ++ [name], EntryName part := by
  induction dirs generalizing node with
  | nil =>
    cases node with
    | file bytes => exact absurd hshows not_shows_file
    | directory entries =>
      obtain ⟨⟨bytes, hlookup⟩, _⟩ := shows_nil_iff.mp hshows
      intro part hpart
      rw [List.mem_singleton.mp hpart]
      exact (h.of_lookup hlookup).1
  | cons d dirs ih =>
    cases node with
    | file bytes => exact absurd hshows not_shows_file
    | directory entries =>
      obtain ⟨_, _, node, hlookup, hbelow⟩ := shows_cons_iff.mp hshows
      obtain ⟨hname, hnode⟩ := h.of_lookup hlookup
      exact List.forall_mem_cons.mpr ⟨hname, ih hnode hbelow⟩

end

end Node

/-! ## What is collected -/

section

variable {kind : Kind} {node : Node} {dir path name p : String}

theorem collect_eq_flatMap (kind : Kind) (dir : String) : ∀ entries, collect kind dir entries =
    entries.flatMap fun e => if isHidden e.1 then [] else visit kind e.1 (Path.join dir e.1) e.2
  | [] => by
    rw [collect]
    rfl
  | (name, node) :: entries => by
    rw [collect, collect_eq_flatMap kind dir entries, List.flatMap_cons]

theorem mem_collect_iff {entries : List (String × Node)} : p ∈ collect kind dir entries ↔
    ∃ e ∈ entries, isHidden e.1 = false ∧ p ∈ visit kind e.1 (Path.join dir e.1) e.2 := by
  rw [collect_eq_flatMap, List.mem_flatMap]
  constructor
  · rintro ⟨e, he, hp⟩
    cases hhidden : isHidden e.1 with
    | true =>
      rw [if_pos hhidden] at hp
      cases hp
    | false =>
      rw [if_neg (by simp [hhidden])] at hp
      exact ⟨e, he, hhidden, hp⟩
  · rintro ⟨e, he, hhidden, hp⟩
    refine ⟨e, he, ?_⟩
    rw [if_neg (by simp [hhidden])]
    exact hp

theorem mem_visit_file {bytes : ByteArray} :
    p ∈ visit kind name path (.file bytes) ↔ kind.acceptsName name = true ∧ p = path := by
  rw [visit]
  by_cases h : kind.acceptsName name = true
  · rw [if_pos h, List.mem_singleton, and_iff_right h]
  · rw [if_neg h]
    simp [h]

theorem mem_visit_directory {entries : List (String × Node)} : p ∈ visit kind name path (.directory entries) ↔
    name ≠ buildDirectory ∧ p ∈ collect kind path entries := by
  rw [visit]
  by_cases h : name = buildDirectory
  · rw [if_pos h]
    simp [h]
  · rw [if_neg h, and_iff_right h]

/-- What is collected below a node are the files that it shows. -/
theorem mem_collect (h : node.WellFormed) : p ∈ collect kind dir node.entries ↔
    ∃ dirs name, node.Shows dirs name ∧ kind.acceptsName name = true ∧ p = under dir (dirs ++ [name]) := by
  induction h generalizing dir with
  | file bytes =>
    constructor
    · intro hp
      rw [Node.entries, collect] at hp
      cases hp
    · rintro ⟨dirs, name, hshows, _⟩
      exact absurd hshows Node.not_shows_file
  | @directory entries distinct names nodes ih =>
    rw [Node.entries, mem_collect_iff]
    constructor
    · rintro ⟨⟨d, node⟩, he, hhidden, hp⟩
      have hlookup := (Node.lookup_eq_some_iff distinct).mpr he
      cases node with
      | file bytes =>
        obtain ⟨haccepts, rfl⟩ := mem_visit_file.mp hp
        exact ⟨[], d, Node.shows_nil_iff.mpr ⟨⟨bytes, hlookup⟩, hhidden⟩, haccepts, rfl⟩
      | directory below =>
        obtain ⟨hbuilt, hp⟩ := mem_visit_directory.mp hp
        obtain ⟨dirs, name, hshows, haccepts, rfl⟩ := (ih _ he).mp hp
        exact ⟨d :: dirs, name, Node.shows_cons_iff.mpr ⟨hhidden, hbuilt, _, hlookup, hshows⟩, haccepts, rfl⟩
    · rintro ⟨dirs, name, hshows, haccepts, rfl⟩
      cases dirs with
      | nil =>
        obtain ⟨⟨bytes, hlookup⟩, hhidden⟩ := Node.shows_nil_iff.mp hshows
        have he := (Node.lookup_eq_some_iff distinct).mp hlookup
        exact ⟨_, he, hhidden, mem_visit_file.mpr ⟨haccepts, rfl⟩⟩
      | cons d dirs =>
        obtain ⟨hhidden, hbuilt, node, hlookup, hshows⟩ := Node.shows_cons_iff.mp hshows
        have he := (Node.lookup_eq_some_iff distinct).mp hlookup
        have hp := (ih _ he).mpr ⟨dirs, name, hshows, haccepts, rfl⟩
        cases node with
        | file bytes => exact absurd hshows Node.not_shows_file
        | directory below => exact ⟨_, he, hhidden, mem_visit_directory.mpr ⟨hbuilt, hp⟩⟩

theorem components_of_mem_visit (hnode : node.WellFormed) (hdir : dir ≠ "") (hname : EntryName name)
    (hp : p ∈ visit kind name (Path.join dir name) node) :
    ∃ cs, components p = components dir ++ .normal name :: cs := by
  cases node with
  | file bytes =>
    obtain ⟨_, rfl⟩ := mem_visit_file.mp hp
    exact ⟨[], Path.components_join hdir hname⟩
  | directory entries =>
    obtain ⟨dirs, last, hshows, _, rfl⟩ := (mem_collect hnode).mp (mem_visit_directory.mp hp).2
    have hnames := hnode.entryNames hshows
    refine ⟨(dirs ++ [last]).map .normal, ?_⟩
    rw [Path.components_under (Path.join_ne_empty hname) hnames, Path.components_join hdir hname, List.append_assoc]
    rfl

/-- No path is collected twice. -/
theorem pairwise_collect (h : node.WellFormed) (hdir : dir ≠ "") :
    (collect kind dir node.entries).Pairwise fun p q => components p ≠ components q := by
  induction h generalizing dir with
  | file bytes =>
    rw [Node.entries, collect]
    exact .nil
  | @directory entries distinct names nodes ih =>
    rw [Node.entries, collect_eq_flatMap, List.pairwise_flatMap]
    constructor
    · rintro ⟨name, node⟩ he
      split
      · exact .nil
      · cases node with
        | file bytes =>
          rw [visit]
          split
          · exact List.pairwise_singleton _ _
          · exact .nil
        | directory below =>
          rw [visit]
          split
          · exact .nil
          · exact ih _ he (Path.join_ne_empty (names _ he))
    · -- paths below different entries differ in the component of the entry
      refine (List.pairwise_map.mp distinct).imp_of_mem ?_
      rintro ⟨n, a⟩ ⟨m, b⟩ ha hb hne p hp q hq heq
      split at hp
      · cases hp
      · split at hq
        · cases hq
        · obtain ⟨cs, hcs⟩ := components_of_mem_visit (nodes _ ha) hdir (names _ ha) hp
          obtain ⟨ds, hds⟩ := components_of_mem_visit (nodes _ hb) hdir (names _ hb) hq
          rw [hcs, hds] at heq
          have hcons := List.append_cancel_left heq
          rw [List.cons.injEq, Path.Component.normal.injEq] at hcons
          exact hne hcons.1

end

end Highlight.Files
