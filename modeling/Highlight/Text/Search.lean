/-!
# Texts in texts
-/

namespace Highlight.Text

/-- Whether the characters of `part` stand side by side somewhere in the list. -/
def hasPart (part : List Char) : List Char → Bool
  | [] => part.isEmpty
  | c :: cs => part.isPrefixOf (c :: cs) || hasPart part cs

theorem hasPart_iff {part cs : List Char} : hasPart part cs ↔ part <:+: cs := by
  induction cs with
  | nil => simp [hasPart]
  | cons c cs ih => simp [hasPart, ih, List.infix_cons_iff]

/-- Whether `part` stands somewhere in the text. -/
def contains (s part : String) : Bool :=
  hasPart part.toList s.toList

end Highlight.Text
