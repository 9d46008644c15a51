import Highlight.Highlighter.Scan
import Highlight.Text.Offsets
import Highlight.Token

/-!
# Tokenizing a text

Each line of a text is painted, a line end added to it so that patterns can see
it, and its stretches are its tokens. Regions that last while a condition holds
are checked at the start of a line, and those that fail are closed together with
all inside them.
-/

namespace Highlight.Highlighter

/-- Checks the conditions of open regions, outermost first, from a position on.
Gives the regions that stay open, outermost first, and where the last match of a
condition ends. -/
def checkConditions (h : Highlighter) (again : Retokenize) (text : Array Char) (start : Nat)
    (p : Painting) : List Frame → Except TokenizeError (List Frame × Nat × Painting)
  | [] => .ok ([], start, p)
  | f :: inner =>
    match f.region.lasting with
    | .untilClosed _ => do
      let (stay, stop, p) ← checkConditions h again text start p inner
      return (f :: stay, stop, p)
    | .whileHolds =>
      match h.engine.matchAt f.closing text start start with
      | none => .ok ([], start, p)
      | some m => do
        let p ← p.addMatch again text m f.region.closingCaptures f.named
        let (stay, stop, p) ← checkConditions h again text m.span.stop p inner
        return (f :: stay, stop, p)

/-- As deep as captures in captures can go in a text of this length without
coming back to the same text and rule. -/
def captureDepth (g : Grammar) (length : Nat) : Nat :=
  (length + 1) * (g.rules.size + 1) + 1

/-- Paints the line of this number. -/
def paintLine (h : Highlighter) (number : Nat) (line : List Char) (s : State) :
    Except TokenizeError (State × Painting) := do
  let text := (line ++ [Text.lineEnd]).toArray
  let again := h.scanWithin number (captureDepth h.grammar text.size)
  let s := s.atLineStart
  let (stay, start, p) ← h.checkConditions again text 0 (.blank line.length) s.frames.reverse
  h.scan number again text start { s with frames := stay.reverse } p

/-- The token of a stretch of a line that starts at an offset. -/
def token (line : List Char) (offset : Nat) (explain : Bool) (s : Stretch) : Token :=
  let content := String.ofList (line.extract s.span.start s.span.stop)
  { offset := offset + Text.offsetAt line s.span.start
    content := content
    explanation := if explain then some [⟨content, s.scopes⟩] else none }

def lineTokens (line : List Char) (offset : Nat) (explain : Bool) (p : Painting) : List Token :=
  p.stretches.reverse.map (token line offset explain)

/-- The tokens of lines, the first of which has this number and offset. -/
def tokenizeLines (h : Highlighter) (explain : Bool) (number offset : Nat) (s : State) :
    List (List Char) → Except TokenizeError (List (List Token))
  | [] => .ok []
  | line :: rest => do
    let (s, p) ← h.paintLine number line s
    let next := offset + Text.byteCount line + 1
    let tokens ← tokenizeLines h explain (number + 1) next s rest
    return lineTokens line offset explain p :: tokens

def tokenize (h : Highlighter) (text : String) (explain : Bool) : Except TokenizeError TokenizedText :=
  (h.tokenizeLines explain 1 0 (.start 0 [h.grammar.scopeName])
    ((Text.lines text).map String.toList)).map (⟨·⟩)

end Highlight.Highlighter
