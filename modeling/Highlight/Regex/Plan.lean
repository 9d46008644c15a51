import Highlight.Regex.Spelling

/-!
# Plans

How an expression is matched. A loop whose body takes few steps is written out
turn by turn; in other loops the turns are counted, and one that consumes nothing
is the last.
-/

namespace Highlight.Regex

/-! ## Steps -/

/-- The number of runs of characters that take the same number of bytes. -/
def byteRuns : List Char → Nat
  | [] => 0
  | [_] => 1
  | c :: d :: cs => byteRuns (d :: cs) + if c.utf8Size = d.utf8Size then 0 else 1

/-- The number of steps that is still few. -/
def fewSteps : Nat := 10

/-- Whether the turns of a loop are counted, its body taking `n` steps. -/
def isCounted (n min : Nat) (max : Option Nat) (greedy : Bool) : Bool :=
  match max with
  | none => if min = 1 then fewSteps < n else fewSteps < n * min
  | some m =>
    if greedy then m ≠ 1 && fewSteps < (n + 1) * m else !(min == 0 && m == 1)

/-- The steps of a loop whose body takes `n`. -/
def loopSteps (n : Nat) (mayBeEmpty : Bool) (min : Nat) (max : Option Nat) (greedy : Bool) : Nat :=
  let turn := if mayBeEmpty then n + 2 else n
  if n = 0 ∨ max = some 0 then 0
  else if isCounted n min max greedy then
    if min = 1 ∧ max = none then turn + 3 else turn + 2
  else
    match max with
    | none => n * min + turn + 2
    | some m => if greedy then n * min + (n + 1) * (m - min) else n + 2

def isDot : Regex → Bool
  | dot _ => true
  | _ => false

/-- Whether the expression is one character of a set or one text. -/
def isUnit : Regex → Bool
  | text cs _ => !cs.isEmpty
  | set _ | dot _ => true
  | _ => false

/-- The steps by which the other ways to match are cut off. -/
def cutSteps : Regex → Nat
  | loop r min none true => if min ≤ 1 ∧ r.isUnit then (if r.isDot then 3 else 1) else 2
  | _ => 2

/-- The steps that matching takes through an expression, one for each text, set,
condition and choice. -/
def steps : Regex → Nat
  | text cs _ => byteRuns cs
  | set _ | dot _ | anchor _ | backreference _ _ _ => 1
  | seq a b => a.steps + b.steps
  | alt a b => a.steps + b.steps + 2
  | group _ r => r.steps + 2
  | withOptions r => r.steps
  | loop r min max greedy =>
    if r.isDot ∧ greedy ∧ max = none ∧ min ≤ fewSteps then min + 1
    else loopSteps r.steps r.mayBeEmpty min max greedy
  | atomic r => r.steps + r.cutSteps
  | ahead negated r => r.steps + if negated then 5 else 2
  | behind negated r =>
    r.steps + if r.hasFixedLength then (if negated then 6 else 3) else (if negated then 14 else 12)

/-! ## Groups and references -/

/-- The groups that are referred to, as often as they are. -/
def references : Regex → List Nat
  | backreference groups _ _ => groups
  | seq a b | alt a b => a.references ++ b.references
  | group _ r | withOptions r | loop r _ _ _ | atomic r | ahead _ r | behind _ r => r.references
  | _ => []

/-- The groups that each turn of a loop around the expression sets anew, but not
one of a loop inside it. -/
def ownGroups : Regex → List Nat
  | group n r => n :: r.ownGroups
  | seq a b | alt a b => a.ownGroups ++ b.ownGroups
  | loop r _ _ _ => if r.mayBeEmpty then [] else r.ownGroups
  | withOptions r | atomic r => r.ownGroups
  | _ => []

/-- The groups of a loop body that are referred to outside of it. -/
def watchedGroups (all : List Nat) (body : Regex) : List Nat :=
  body.ownGroups.filter fun n => body.references.count n < all.count n

def hasGroup : Regex → Bool
  | group _ _ => true
  | seq a b | alt a b => a.hasGroup || b.hasGroup
  | withOptions r | loop r _ _ _ | atomic r | ahead _ r | behind _ r => r.hasGroup
  | _ => false

/-- Whether a group stands where the text before a position is excluded, which
could never set it. -/
def hasUselessGroup : Regex → Bool
  | behind negated r => (negated && r.hasGroup) || r.hasUselessGroup
  | seq a b | alt a b => a.hasUselessGroup || b.hasUselessGroup
  | group _ r | withOptions r | loop r _ _ _ | atomic r | ahead _ r => r.hasUselessGroup
  | _ => false

end Regex

/-! ## Plans -/

inductive Plan where
  | text (cs : List Char)
  | set (s : CharSet)
  | anchor (a : Anchor)
  | seq (a b : Plan)
  | alt (a b : Plan)
  | group (number : Nat) (body : Plan)
  /-- If turns are counted, one that consumes nothing ends the loop, however few
  were made. It does not where it gives one of the `watched` groups an empty text. -/
  | loop (body : Plan) (min : Nat) (max : Option Nat) (greedy counted : Bool) (watched : List Nat)
  | atomic (body : Plan)
  | ahead (negated : Bool) (body : Plan)
  /-- The condition that `least` to `most` characters match up to here. -/
  | behind (negated : Bool) (least : Nat) (most : Option Nat) (body : Plan)
  | backreference (groups : List Nat) (anyCase : Bool)
  deriving Repr

namespace Plan

instance : Inhabited Plan := ⟨.text []⟩

/-- The measure of the search for matches: a loop with a turn made is smaller. -/
def size : Plan → Nat
  | text _ | set _ | anchor _ | backreference _ _ => 1
  | seq a b | alt a b => a.size + b.size + 1
  | group _ p | atomic p | ahead _ p | behind _ _ _ p => p.size + 1
  | loop p min max _ _ _ => p.size + min + max.getD 0 + 1

/-- The plan of an expression, in which all the groups `all` are referred to. -/
def ofRegex (all : List Nat) : Regex → Plan
  | .text cs _ => text cs
  | .set s => set s
  | .dot newlineToo => set (if newlineToo then .compl .none else .compl (.single '\n'))
  | .anchor a => anchor a
  | .seq a b => seq (ofRegex all a) (ofRegex all b)
  | .alt a b => alt (ofRegex all a) (ofRegex all b)
  | .group n r => group n (ofRegex all r)
  | .withOptions r => ofRegex all r
  | .loop r min max greedy =>
    if max = some 0 ∨ r.steps = 0 then text []
    else
      loop (ofRegex all r) min max greedy (Regex.isCounted r.steps min max greedy)
        (if r.mayBeEmpty then r.watchedGroups all else [])
  | .atomic r => atomic (ofRegex all r)
  | .ahead negated r => ahead negated (ofRegex all r)
  | .behind negated r => behind negated r.lengths.1 r.lengths.2 (ofRegex all r)
  | .backreference groups anyCase _ => backreference groups anyCase

end Plan

end Highlight
