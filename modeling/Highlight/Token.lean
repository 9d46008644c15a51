import Highlight.Span

/-!
# Tokens

What highlighting makes of a text: for each line, the tokens that cover it,
each with the stack of scopes it stands in.
-/

namespace Highlight

/-- A piece of a token and the scopes it stands in, outermost first. -/
structure Explanation where
  content : String
  scopes : List String
  deriving DecidableEq, Repr

structure Token where
  /-- The byte at which the token starts in the whole text. -/
  offset : Nat
  content : String
  /-- Absent when scopes were not asked for. -/
  explanation : Option (List Explanation)
  deriving DecidableEq, Repr

/-- The bytes of the text that the token covers. -/
def Token.span (t : Token) : Span :=
  ⟨t.offset, t.offset + t.content.utf8ByteSize⟩

/-- Every scope of every piece. A token without explanation has none. -/
def Token.scopes (t : Token) : List String :=
  (t.explanation.getD []).flatMap (·.scopes)

/-- The tokens of each line, in order. -/
structure TokenizedText where
  lines : List (List Token)
  deriving DecidableEq, Repr

def TokenizedText.line? (t : TokenizedText) (index : Nat) : Option (List Token) :=
  t.lines[index]?

end Highlight
