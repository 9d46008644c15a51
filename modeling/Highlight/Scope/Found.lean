import Highlight.Token

/-!
# Scope names

A scope name is a sequence of segments with dots between them, from general
to specific. An expectation is met by the scope itself and by every scope
below it.
-/

namespace Highlight.Scope

/-- Whether `actual` is `expected` or lies below it: `keyword.control` is
within `keyword`, and `keywordish` is not. -/
def within (actual expected : String) : Bool :=
  expected.toList.isPrefixOf actual.toList &&
    match actual.toList.drop expected.toList.length with
    | [] => true
    | c :: _ => c == '.'

/-- Distinct scope names in the order they were first seen. -/
structure Found where
  names : List String
  nodup : names.Nodup

namespace Found

def empty : Found := ⟨[], .nil⟩

/-- Adds `name` at the end unless it is there already. -/
def insert (f : Found) (name : String) : Found :=
  if h : name ∈ f.names then f
  else ⟨f.names ++ [name],
    List.nodup_append.mpr ⟨f.nodup, by simp, by
      intro a ha b hb; simp only [List.mem_singleton] at hb; subst hb
      exact fun e => h (e ▸ ha)⟩⟩

def ofList (names : List String) : Found :=
  names.foldl insert empty

/-- Whether some name found is within `expected`. -/
def meets (f : Found) (expected : String) : Bool :=
  f.names.any (within · expected)

/-- The names with a comma and a space between each two. -/
def display (f : Found) : String :=
  String.intercalate ", " f.names

end Found

/-- The scopes of the tokens that overlap `span`. -/
def inSpan (tokens : List Token) (span : Span) : Found :=
  Found.ofList ((tokens.filter fun t => t.span.overlaps span).flatMap Token.scopes)

end Highlight.Scope
