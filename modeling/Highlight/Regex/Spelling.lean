import Highlight.Regex.Syntax

/-!
# Texts in any case

A text whose case does not matter stands for all texts that fold as it does. Here
it is written out: as sets of characters, and as alternatives where several
characters fold as one does.
-/

namespace Highlight.Regex

open Unicode (foldOne foldingTo foldExpansion? ligatures caseVariants)

/-! ## Joining texts -/

/-- `a` and then `b`, as one text if they are texts of one kind. -/
def joinText : Regex → Regex → Regex
  | text xs i, text ys j =>
    if i = j then text (xs ++ ys) i else seq (text xs i) (text ys j)
  | text xs i, seq (text ys j) r =>
    if i = j then seq (text (xs ++ ys) i) r else seq (text xs i) (seq (text ys j) r)
  | a, b => seq a b

/-- The expression with neighbouring texts joined. -/
def joined : Regex → Regex
  | seq a b => joinText a.joined b.joined
  | alt a b => alt a.joined b.joined
  | group n r => group n r.joined
  | withOptions r => withOptions r.joined
  | loop r min max greedy => loop r.joined min max greedy
  | atomic r => atomic r.joined
  | ahead negated r => ahead negated r.joined
  | behind negated r => behind negated r.joined
  | r => r

/-! ## Ways to write a text -/

/-- The texts that fold to `cs` character by character. -/
def spellings : List Char → List (List Char)
  | [] => [[]]
  | c :: cs => (c :: foldingTo c).flatMap fun d => (spellings cs).map (d :: ·)

/-- What the first three or two characters fold to, if one character folds to that. -/
def ligatureStart? (cs : List Char) : Option (List Char) :=
  [3, 2].findSome? fun n =>
    let folded := (cs.take n).map foldOne
    if folded.length = n ∧ ligatures folded ≠ [] then some folded else none

/-- The texts that fold to `folded`, of which `written` is one. -/
def anySpelling (written folded : List Char) : Regex :=
  anyOf (text written false) <|
    (((ligatures folded).map ([·]) ++ spellings folded).filter (· ≠ written)).map (text · false)

/-- One of the single characters that fold as `c` does. -/
def anyVariant (c : Char) : Regex :=
  match caseVariants c with
  | [] => text [c] false
  | variants => set (.oneOf (c :: variants))

/-- What folds as a text does, character by character or where some characters
fold as one does. Before a position characters are compared one by one, and the
first of some that fold as one does only with itself. -/
def foldedParts (behind : Bool) : List Char → List Regex
  | [] => []
  | c :: cs =>
    match ligatureStart? (c :: cs), foldExpansion? c with
    | some folded, _ =>
      if behind then text [c] false :: foldedParts behind cs
      else
        anySpelling ((c :: cs).take folded.length) folded ::
          foldedParts behind (cs.drop (folded.length - 1))
    | none, some folded =>
      (if behind then anyVariant c else anySpelling [c] folded) :: foldedParts behind cs
    | none, none => anyVariant c :: foldedParts behind cs
termination_by cs => cs.length

/-- The texts of several characters that fold as a character of `s` does. -/
def expansionsOf (s : CharSet) : List Regex :=
  Unicode.foldExpansions.filterMap fun (c, folded) =>
    if s.contains c then
      some (ofParts (folded.map anyVariant)).joined
    else none

/-- A character of a class, in any case. Where the class does not exclude what it
lists, several characters that fold as a listed one does match as well. -/
def classInAnyCase (listed : CharSet) (negated : Bool) : Regex :=
  if negated then set (.compl (.anyCase listed))
  else anyOf (set (.anyCase listed)) (expansionsOf listed)

/-! ## Conditions on the text before a position -/

/-- Least and greatest number of characters that are consumed. -/
def lengths : Regex → Nat × Option Nat
  | text cs _ => (cs.length, some cs.length)
  | set _ | dot _ => (1, some 1)
  | anchor _ | ahead _ _ | behind _ _ => (0, some 0)
  | seq a b =>
    (a.lengths.1 + b.lengths.1, a.lengths.2.bind fun m => b.lengths.2.map fun n => m + n)
  | alt a b =>
    (Nat.min a.lengths.1 b.lengths.1,
      a.lengths.2.bind fun m => b.lengths.2.map fun n => Nat.max m n)
  | group _ r | withOptions r | atomic r => r.lengths
  | loop r min max _ =>
    (r.lengths.1 * min,
      if r.lengths.2 = some 0 then some 0
      else max.bind fun m => r.lengths.2.map fun n => n * m)
  | backreference _ _ _ => (0, none)

def hasFixedLength (r : Regex) : Bool :=
  r.lengths.2 == some r.lengths.1

def alternatives : Regex → List Regex
  | alt a b => a :: alternatives b
  | r => [r]

/-- The condition that `r` matches, or does not match, up to here. Alternatives of
lengths of their own are conditions of their own. -/
def lookBehind (negated : Bool) (r : Regex) : Regex :=
  if r.alternatives.all hasFixedLength && !r.hasFixedLength then
    match r.alternatives.map (behind negated) with
    | [] => empty
    | c :: cs => if negated then ofParts (c :: cs) else c.anyOf cs
  else behind negated r

/-! ## Writing out -/

/-- The longest text, in bytes, that an exact count of a text is written out to. -/
def maxWrittenOut : Nat := 100

/-- `r` repeated; a short text is written out the number of times it is repeated. -/
def loopOf (r : Regex) (min : Nat) (max : Option Nat) (greedy : Bool) : Regex :=
  match r with
  | text cs i =>
    if max = some min ∧ 1 < min ∧ min ≤ maxWrittenOut ∧
        min * (cs.map Char.utf8Size).foldl Nat.add 0 ≤ maxWrittenOut then
      text (List.replicate min cs).flatten i
    else loop (text cs i) min max greedy
  | r => loop r min max greedy

/-- The expression without texts whose case does not matter. -/
def spelledOut (inBehind : Bool) : Regex → Regex
  | text cs true => (ofParts (foldedParts inBehind cs)).joined
  | seq a b => seq (a.spelledOut inBehind) (b.spelledOut inBehind)
  | alt a b => alt (a.spelledOut inBehind) (b.spelledOut inBehind)
  | group n r => group n (r.spelledOut inBehind)
  | withOptions r => withOptions (r.spelledOut inBehind)
  | loop r min max greedy => loopOf (r.spelledOut inBehind) min max greedy
  | atomic r => atomic (r.spelledOut inBehind)
  | ahead negated r => ahead negated (r.spelledOut inBehind)
  | behind negated r => lookBehind negated (r.spelledOut true)
  | r => r

end Highlight.Regex
