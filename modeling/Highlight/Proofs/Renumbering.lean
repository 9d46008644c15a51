import Highlight.Proofs.Embedding
import Mathlib.Logic.Equiv.Basic

/-!
# Numbers of rules

A grammar whose rules have other numbers highlights the same.
-/

namespace Highlight

namespace Grammar

/-- The second grammar is the first, with other numbers for its rules. -/
structure Renumbers (f : Equiv.Perm Nat) (G G' : Grammar) : Prop where
  name : G'.name = G.name
  scopeName : G'.scopeName = G.scopeName
  size : G'.rules.size = G.rules.size
  root : f 0 = 0
  rules : ∀ i, G'.rules[f i]? = G.rules[i]?.map (·.renumber f)
  candidates : ∀ i, G'.candidates[f i]? = G.candidates[i]?.map (·.map f)

namespace Renumbers

variable {f : Equiv.Perm Nat} {G G' : Grammar}

def placement (f : Equiv.Perm Nat) (G : Grammar) : Placement where
  number := f
  inside i := ((G.rules[i]?.map (·.patterns)).getD []).map f

theorem inside_placement {i : Nat} {r : Rule Nat Pattern} (hr : G.rules[i]? = some r) :
    (placement f G).inside i = r.patterns.map f := by
  simp [placement, hr]

theorem holds (hrules : ∀ i, G'.rules[f i]? = G.rules[i]?.map (·.renumber f)) :
    (placement f G).Holds (fun _ => False) G.rules G'.rules where
  apart := f.injective
  placed i := by
    show G'.rules[f i]? = _
    rw [hrules]
    cases hr : G.rules[i]? with
    | none => rfl
    | some r =>
      rw [Option.map_some, Option.map_some, inside_placement hr]
      cases r <;> rfl
  inside i r hr := by
    rw [inside_placement hr]
    cases r with
    | container ps => exact .of_map f ps
    | piece name p cs => exact .nil
    | region r => exact .of_map f r.patterns
  ne_mute _ := id
  mute _ _ h := h.elim

theorem of_rules (hname : G'.name = G.name) (hscope : G'.scopeName = G.scopeName)
    (hsize : G'.rules.size = G.rules.size) (hroot : f 0 = 0)
    (hrules : ∀ i, G'.rules[f i]? = G.rules[i]?.map (·.renumber f)) : Renumbers f G G' where
  name := hname
  scopeName := hscope
  size := hsize
  root := hroot
  rules := hrules
  candidates i := by
    rw [G.candidates_eq, G'.candidates_eq, Array.getElem?_map, Array.getElem?_map, hrules, Option.map_map, Option.map_map]
    congr 1
    funext r
    rw [Function.comp, Function.comp, Rule.patterns_renumber]
    exact (holds hrules).expand_padded (.of_map f r.patterns) fun _ => by simp

theorem embeds (h : Renumbers f G G') : Embeds (placement f G) G G' :=
  .of_holds h.scopeName (Nat.le_of_eq h.size.symm) h.root (holds h.rules)

end Renumbers

end Grammar

theorem tokenize_renumber {f : Equiv.Perm Nat} {G G' : Grammar} (h : Grammar.Renumbers f G G') (m : Engine) (text : String)
    (explain : Bool) : Highlighter.tokenize ⟨G', m⟩ text explain = Highlighter.tokenize ⟨G, m⟩ text explain :=
  tokenize_of_embeds h.embeds m text explain

end Highlight
