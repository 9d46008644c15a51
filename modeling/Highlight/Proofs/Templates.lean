import Highlight.Proofs.References
import Highlight.Proofs.Slices

/-!
# Walking through a template

The walk finds dollar signs and takes references apart by the offsets of bytes, and it goes on behind
a reference, or right behind a dollar sign that starts none. No slice of it falls inside a character. It
puts out what the one cut of the template yields, and never comes back to what it has put out.
-/

namespace Highlight.Scope

def slicedReference (cs : List Char) : Option (List Char × List Char) :=
  match cs with
  | '\x7b' :: inner =>
    match Text.find? '\x7d' inner with
    | none => some ([], cs)
    | some i => do
      let (reference, _) ← Text.splitAt? inner i
      let (_, rest) ← Text.splitAt? inner (i + 1)
      return (reference, rest)
  | cs => Text.splitAt? cs (Text.digitBytes cs)

/-- The slices around the first dollar sign of a text: what is before it and what is after it, and of
that what is taken for a reference and what is left. -/
def sliced (cs : List Char) : Option (List Char × List Char × List Char × List Char) := do
  let i ← Text.find? '$' cs
  let (before, _) ← Text.splitAt? cs i
  let (_, after) ← Text.splitAt? cs (i + 1)
  let (inner, rest) ← slicedReference after
  return (before, after, inner, rest)

inductive Expands (groups : List (Option String)) : List Char → List Char → Prop
  | last {cs} : Text.find? '$' cs = none → Expands groups cs cs
  | reference {cs before after inner rest n modifier filled out} : sliced cs = some (before, after, inner, rest) →
    Names inner n modifier → Fills groups n modifier filled → Expands groups rest out →
    Expands groups cs (before ++ filled ++ out)
  | dollar {cs before after inner rest out} : sliced cs = some (before, after, inner, rest) →
    (∀ n modifier, ¬Names inner n modifier) → Expands groups after out → Expands groups cs (before ++ '$' :: out)

variable {cs before after inner rest out : List Char} {groups : List (Option String)}

theorem slicedReference_eq (cs : List Char) : slicedReference cs = some ((referenceText cs).getD ([], cs)) := by
  by_cases hhead : cs.head? = some '\x7b'
  · obtain ⟨tail, rfl⟩ := List.head?_eq_some_iff.mp hhead
    by_cases hclose : '\x7d' ∈ tail
    · obtain ⟨inner, rest, rfl, hinner⟩ := List.eq_append_cons_of_mem hclose
      have htext : referenceText ('\x7b' :: (inner ++ '\x7d' :: rest)) = some (inner, rest) :=
        cutAt_eq_some_iff.mpr ⟨hinner, rfl⟩
      rw [htext]
      simp only [slicedReference, Text.find?_append hinner, Text.splitAt?_append,
        Text.splitAt?_succ (show '\x7d'.utf8Size = 1 from rfl), Option.bind_eq_bind, Option.bind_some, Option.getD_some]
      rfl
    · have htext : referenceText ('\x7b' :: tail) = none := cutAt_eq_none_iff.mpr hclose
      rw [htext]
      simp only [slicedReference, Text.find?_eq_none_iff.mpr hclose, Option.getD_none]
  · rw [referenceText_digits hhead]
    unfold slicedReference
    split
    · exact absurd rfl hhead
    · have := Text.splitAt?_append (cs.takeWhile Char.isDigit) (cs.dropWhile Char.isDigit)
      rwa [List.takeWhile_append_dropWhile, ← Text.digitBytes_eq] at this

/-- All slices can be taken, and they are the parts that characters are counted off for. -/
theorem sliced_append (h : '$' ∉ before) (after : List Char) :
    sliced (before ++ '$' :: after) = some (before, after, (referenceText after).getD ([], after)) := by
  unfold sliced
  rw [Text.find?_append h]
  simp only [Text.splitAt?_append, Text.splitAt?_succ (show '$'.utf8Size = 1 from rfl), slicedReference_eq,
    Option.bind_eq_bind, Option.bind_some]
  rfl

theorem eq_append_of_sliced (h : sliced cs = some (before, after, inner, rest)) :
    '$' ∉ before ∧ cs = before ++ '$' :: after ∧ (referenceText after).getD ([], after) = (inner, rest) := by
  by_cases hdollar : '$' ∈ cs
  · obtain ⟨before', after', rfl, hbefore⟩ := List.eq_append_cons_of_mem hdollar
    rw [sliced_append hbefore] at h
    cases hrest : (referenceText after').getD ([], after')
    rw [hrest] at h
    cases h
    exact ⟨hbefore, rfl, hrest⟩
  · rw [sliced, Text.find?_eq_none_iff.mpr hdollar] at h
    cases h

theorem readReference_eq (h : (referenceText cs).getD ([], cs) = (inner, rest)) :
    readReference cs = (reference? inner).map fun p => (p, rest) := by
  unfold readReference
  cases htext : referenceText cs with
  | none =>
    rw [htext] at h
    cases h
    rw [reference?_eq_none_iff.mpr fun _ _ => not_names_nil, Option.map_none]
  | some parts =>
    rw [htext] at h
    cases h
    cases hp : reference? inner with
    | none => simp only [hp, Option.map_none]
    | some p => simp only [hp, Option.map_some]

theorem flatMap_fill_literals (cs : List Char) : (cs.map Piece.literal).flatMap (Piece.fill groups) = cs := by
  rw [List.flatMap_map]
  exact List.flatMap_singleton' cs

theorem Expands.eq (h : Expands groups cs out) : out = (pieces cs).flatMap (Piece.fill groups) := by
  induction h with
  | @last cs hnone =>
    have := pieces_append (Text.find?_eq_none_iff.mp hnone) []
    rw [List.append_nil] at this
    rw [this, pieces, List.append_nil, flatMap_fill_literals]
  | reference hsliced hnames hfills _ ih =>
    obtain ⟨hbefore, rfl, htext⟩ := eq_append_of_sliced hsliced
    have hread := readReference_eq htext
    rw [reference?_of_names hnames, Option.map_some] at hread
    rw [pieces_append hbefore, pieces_reference hread, List.flatMap_append, flatMap_fill_literals, List.flatMap_cons,
      ← fills_iff.mp hfills, ← ih, List.append_assoc]
  | dollar hsliced hnone _ ih =>
    obtain ⟨hbefore, rfl, htext⟩ := eq_append_of_sliced hsliced
    have hread := readReference_eq htext
    rw [reference?_eq_none_iff.mpr hnone, Option.map_none] at hread
    rw [pieces_append hbefore, pieces_dollar hread, List.flatMap_append, flatMap_fill_literals, List.flatMap_cons, ← ih]
    rfl

/-- A turn of the walk leaves less of the template. -/
theorem exists_expands (groups : List (Option String)) (cs : List Char) : ∃ out, Expands groups cs out := by
  by_cases hdollar : '$' ∈ cs
  · obtain ⟨before, after, hcs, hbefore⟩ := List.eq_append_cons_of_mem hdollar
    have hsliced := sliced_append hbefore after
    rw [← hcs] at hsliced
    have hlength : after.length < cs.length := by
      rw [hcs, List.length_append, List.length_cons]
      omega
    cases htext : (referenceText after).getD ([], after) with
    | mk inner rest =>
      rw [htext] at hsliced
      have hread := readReference_eq htext
      cases hp : reference? inner with
      | none =>
        obtain ⟨out, hout⟩ := exists_expands groups after
        exact ⟨_, .dollar hsliced (reference?_eq_none_iff.mp hp) hout⟩
      | some p =>
        rw [hp, Option.map_some] at hread
        have hrest := length_of_readReference hread
        obtain ⟨out, hout⟩ := exists_expands groups rest
        obtain ⟨n, modifier, hnames, _⟩ := reference?_eq_some_iff.mp hp
        exact ⟨_, .reference hsliced hnames (fills_iff.mpr rfl) hout⟩
  · exact ⟨cs, .last (Text.find?_eq_none_iff.mpr hdollar)⟩
termination_by cs.length

theorem expands_iff : Expands groups cs out ↔ out = (pieces cs).flatMap (Piece.fill groups) := by
  constructor
  · exact Expands.eq
  · rintro rfl
    obtain ⟨out, hout⟩ := exists_expands groups cs
    rw [← hout.eq]
    exact hout

/-- A template has one cut. The texts of groups come in the places of its references and all else stays, and
the walk through its bytes comes to its end with just that. -/
theorem fillIn_cut (name : String) :
    ∃ ps, (∀ qs, IsCut name.toList qs ↔ qs = ps) ∧ ps.flatMap Part.text = name.toList ∧
      ∀ groups : List (Option String),
        (∃ texts, List.Forall₂ (Part.Yields groups) ps texts ∧ (fillIn name groups).toList = texts.flatten) ∧
        ∀ out, Expands groups name.toList out ↔ out = (fillIn name groups).toList := by
  obtain ⟨ps, hcut, hyields⟩ := exists_cut name.toList
  refine ⟨ps, fun qs => ⟨fun h => h.unique hcut, ?_⟩, hcut.text, fun groups => ⟨⟨_, hyields groups, ?_⟩, fun out => ?_⟩⟩
  · rintro rfl
    exact hcut
  · rw [fillIn, String.toList_ofList, List.flatMap_def]
  · rw [fillIn, String.toList_ofList, expands_iff]

-- a group that holds a reference, a brace that is never closed, a number that is too great
example : fillIn "é$1$$\x7b2:/upcase:\x7d$\x7b+2:/upcase\x7d.$18446744073709551616$\x7b" [none, some "$2", some "a$1"] =
    "é$2$a$1A$1.$18446744073709551616$\x7b" := by
  decide +kernel

end Highlight.Scope
