import Highlight.Text.Digits
import Highlight.Text.Words
import Highlight.Unicode.CaseMap

/-!
# Scope templates

The name of a rule gives the scopes of what it matches. It can refer to the
groups of the match, as `$1` or `${1}`, or as `${1:/downcase}` or `${1:/upcase}`
for the text of a group in other letters. The text that is put in is not looked
at again.
-/

namespace Highlight.Scope

/-- What is done to the text of a group. -/
inductive Casing where
  | kept | lower | upper
  deriving DecidableEq, Repr

def Casing.ofModifier (modifier : List Char) : Casing :=
  if modifier = "/downcase".toList then lower
  else if modifier = "/upcase".toList then upper
  else kept

def Casing.apply : Casing → String → String
  | kept, s => s
  | lower, s => Unicode.toLower s
  | upper, s => Unicode.toUpper s

inductive Piece where
  | literal (c : Char)
  | reference (group : Nat) (casing : Casing)
  deriving DecidableEq, Repr

/-- The part of the text before the first of a character, and the part after it. -/
def cutAt (c : Char) (cs : List Char) : Option (List Char × List Char) :=
  match cs.dropWhile (· ≠ c) with
  | [] => none
  | _ :: rest => some (cs.takeWhile (· ≠ c), rest)

/-- The reference that a number, maybe with a modifier after a colon, makes. -/
def reference? (inner : List Char) : Option Piece :=
  let parts := (cutAt ':' inner).getD (inner, [])
  (Text.number? parts.1).map fun group => .reference group (.ofModifier parts.2)

/-- What a reference after a dollar sign says, in braces or in digits, and the
text after it. -/
def referenceText (cs : List Char) : Option (List Char × List Char) :=
  match cs with
  | '\x7b' :: cs => cutAt '\x7d' cs
  | cs => some (cs.takeWhile Char.isDigit, cs.dropWhile Char.isDigit)

/-- The reference after a dollar sign, and the text after it. -/
def readReference (cs : List Char) : Option (Piece × List Char) :=
  match referenceText cs with
  | none => none
  | some (inner, rest) =>
    match reference? inner with
    | none => none
    | some p => some (p, rest)

@[grind →] theorem length_of_cutAt {c : Char} {cs before rest : List Char}
    (h : cutAt c cs = some (before, rest)) : rest.length < cs.length := by
  have := (List.dropWhile_suffix (l := cs) (· ≠ c)).length_le
  unfold cutAt at h
  grind

@[grind →] theorem length_of_referenceText {cs inner rest : List Char}
    (h : referenceText cs = some (inner, rest)) : rest.length ≤ cs.length := by
  unfold referenceText at h
  split at h
  · have := length_of_cutAt h
    simp only [List.length_cons]
    omega
  · cases h
    exact (List.dropWhile_suffix _).length_le

@[grind →] theorem length_of_readReference {cs rest : List Char} {p : Piece}
    (h : readReference cs = some (p, rest)) : rest.length ≤ cs.length := by
  unfold readReference at h
  grind

/-- The pieces of a template. A dollar sign that starts no reference stands for
itself. -/
def pieces (cs : List Char) : List Piece :=
  match cs with
  | [] => []
  | '$' :: cs =>
    match _h : readReference cs with
    | some (p, rest) => p :: pieces rest
    | none => .literal '$' :: pieces cs
  | c :: cs => .literal c :: pieces cs
termination_by cs.length
decreasing_by
  all_goals grind

def Piece.fill (groups : List (Option String)) : Piece → List Char
  | literal c => [c]
  | reference group casing => (casing.apply (groups[group]?.join.getD "")).toList

/-- A template with the texts of the groups put in. -/
def fillIn (template : String) (groups : List (Option String)) : String :=
  String.ofList ((pieces template.toList).flatMap (Piece.fill groups))

/-- The scopes that a template names, none if there is no template. -/
def ofTemplate (template : Option String) (groups : List (Option String)) : List String :=
  match template with
  | none => []
  | some t => (Text.words (fillIn t groups).toList).map String.ofList

end Highlight.Scope
