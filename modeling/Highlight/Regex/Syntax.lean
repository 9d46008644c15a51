import Highlight.Regex.CharSet
import Highlight.Regex.Error

/-!
# Regular expressions

What a pattern says, part by part, as it is read.
-/

namespace Highlight

/-- Conditions on a position. -/
inductive Anchor where
  | textStart
  | textEnd
  /-- The end, or before a newline at the end. -/
  | lastLineEnd
  | lineStart
  | lineEnd
  | wordBoundary
  | notWordBoundary
  /-- Where the search began. -/
  | searchStart
  deriving DecidableEq, Repr

inductive Regex where
  /-- These characters in a row, or a text that folds as they do. -/
  | text (cs : List Char) (anyCase : Bool)
  | set (s : CharSet)
  /-- Any character, among them a newline only if said so. -/
  | dot (newlineToo : Bool)
  | anchor (a : Anchor)
  | seq (a b : Regex)
  /-- The second is tried where the first leads to no match. -/
  | alt (a b : Regex)
  | group (number : Nat) (body : Regex)
  /-- A part that has options of its own. -/
  | withOptions (body : Regex)
  /-- At least `min` and at most `max` times, as often or as seldom as possible. -/
  | loop (body : Regex) (min : Nat) (max : Option Nat) (greedy : Bool)
  /-- Only the first way to match counts. -/
  | atomic (body : Regex)
  | ahead (negated : Bool) (body : Regex)
  | behind (negated : Bool) (body : Regex)
  /-- The text of the first of these groups that took part. -/
  | backreference (groups : List Nat) (anyCase : Bool) (mayBeEmpty : Bool)
  deriving Repr

namespace Regex

/-- The part that matches the empty text. -/
def empty : Regex := text [] false

instance : Inhabited Regex := ⟨empty⟩

/-- What cannot be repeated: a condition on a position, or alternatives with
such a condition among them. -/
def isCondition : Regex → Bool
  | anchor _ | ahead _ _ | behind _ _ => true
  | alt a b => a.isCondition || b.isCondition
  | _ => false

/-- Whether nothing in the expression has to consume a character. -/
def mayBeEmpty : Regex → Bool
  | text cs _ => cs.isEmpty
  | set _ | dot _ => false
  | anchor _ | ahead _ _ | behind _ _ => true
  | seq a b => a.mayBeEmpty && b.mayBeEmpty
  | alt a b => a.mayBeEmpty || b.mayBeEmpty
  | group _ r | withOptions r | atomic r => r.mayBeEmpty
  | loop r min _ _ => min == 0 || r.mayBeEmpty
  | backreference _ _ mayBeEmpty => mayBeEmpty

/-! ## Sequences -/

/-- `a` and then `b`. The parts of a sequence `a` become parts of the whole. -/
def append : Regex → Regex → Regex
  | seq a b, r => seq a (b.append r)
  | a, r => seq a r

def appendAll (r : Regex) : List Regex → Regex
  | [] => r
  | r' :: rs => r.append (r'.appendAll rs)

/-- The sequence of some parts. A sequence that stands first stays one part. -/
def ofParts : List Regex → Regex
  | [] => empty
  | [r] => r
  | r :: r' :: rs => seq r (r'.appendAll rs)

/-- The alternatives of some parts. -/
def anyOf (r : Regex) : List Regex → Regex
  | [] => r
  | r' :: rs => alt r (r'.anyOf rs)

/-! ## Repetition -/

/-- The six loops that have a sign of their own. -/
inductive Simple where
  | optional | star | plus | lazyOptional | lazyStar | lazyPlus
  deriving DecidableEq, Repr

def Simple.ofLoop? : (min : Nat) → (max : Option Nat) → (greedy : Bool) → Option Simple
  | 0, some 1, true => some .optional
  | 0, none, true => some .star
  | 1, none, true => some .plus
  | 0, some 1, false => some .lazyOptional
  | 0, none, false => some .lazyStar
  | 1, none, false => some .lazyPlus
  | _, _, _ => none

def Simple.apply (s : Simple) (r : Regex) : Regex :=
  match s with
  | .optional => loop r 0 (some 1) true
  | .star => loop r 0 none true
  | .plus => loop r 1 none true
  | .lazyOptional => loop r 0 (some 1) false
  | .lazyStar => loop r 0 none false
  | .lazyPlus => loop r 1 none false

/-- The loops, inner first, that a simple loop around a simple loop amounts to. -/
def Simple.around (inner outer : Simple) : List Simple :=
  match inner, outer with
  | .optional, .optional => [.optional]
  | .optional, .star | .optional, .plus => [.star]
  | .optional, .lazyOptional => [.lazyOptional]
  | .optional, .lazyStar => [.lazyStar]
  | .star, .lazyOptional | .star, .lazyStar => [.plus, .lazyOptional]
  | .star, _ => [.star]
  | .plus, .optional | .plus, .star => [.star]
  | .plus, .plus | .plus, .lazyPlus => [.plus]
  | .plus, .lazyStar => [.plus, .lazyOptional]
  | .lazyOptional, .optional | .lazyOptional, .lazyOptional => [.lazyOptional]
  | .lazyOptional, _ => [.lazyStar]
  | .lazyStar, _ => [.lazyStar]
  | .lazyPlus, .lazyOptional | .lazyPlus, .lazyStar => [.lazyStar]
  | .lazyPlus, .lazyPlus => [.lazyPlus]
  | inner, outer => [inner, outer]

/-- The number of times that a loop around a loop may come to. -/
def maxTimes : Nat := 2147483647

/-- A loop around the loop of `body`: two simple loops are made the ones they
amount to, two exact counts are multiplied, and of many rounds of a star or a
plus only those are kept that have to be made. -/
def loopAround (body : Regex) (innerMin : Nat) (innerMax : Option Nat) (innerGreedy : Bool)
    (min : Nat) (max : Option Nat) (greedy : Bool) : Except Error Regex :=
  let inner := loop body innerMin innerMax innerGreedy
  match Simple.ofLoop? innerMin innerMax innerGreedy, Simple.ofLoop? min max greedy with
  | some a, some b => .ok ((a.around b).foldl (fun r s => s.apply r) body)
  | some a, none =>
    let kept := (a = .star ∨ a = .plus) ∧ greedy ∧ max.any (1 < ·)
    .ok (loop inner min (if kept then some (Nat.max min 1) else max) greedy)
  | none, _ =>
    if innerMax = some innerMin ∧ max = some min then
      if innerMin ≠ 0 ∧ maxTimes / innerMin ≤ min then .error .tooManyRepeats
      else .ok (loop body (innerMin * min) (some (innerMin * min)) greedy)
    else .ok (loop inner min max greedy)

/-- `r` repeated. -/
def repeated (r : Regex) (min : Nat) (max : Option Nat) (greedy : Bool) : Except Error Regex :=
  match r with
  | loop body innerMin innerMax innerGreedy =>
    loopAround body innerMin innerMax innerGreedy min max greedy
  | _ => .ok (loop r min max greedy)

end Regex

end Highlight
