import Highlight.Regex.Plan
import Highlight.Span

/-!
# Matching

A match is looked for by following a plan through the text. What has to follow is
passed along as a continuation, so the first way through the plan that leads to a
match of the whole is the one taken.
-/

namespace Highlight.Regex

/-- The text that is searched and where the search began. -/
structure Subject where
  text : Array Char
  searchStart : Nat

/-- The spans of the groups that took part. -/
abbrev Captured := List (Option Span)

/-- Where a match ends, and its groups. -/
structure Reached where
  stop : Nat
  groups : Captured
  deriving DecidableEq, Repr

namespace Subject

/-! ## Conditions -/

def isWordAt (s : Subject) (i : Nat) : Bool :=
  s.text[i]?.any Unicode.isWordOrNumeral

/-- Whether just one of the characters beside a position is a word character. -/
def isWordBoundary (s : Subject) (i : Nat) : Bool :=
  (i != 0 && s.isWordAt (i - 1)) != s.isWordAt i

def isNewline (s : Subject) (i : Nat) : Bool :=
  s.text[i]? == some '\n'

/-- A line does not start at the end of the text. -/
def holds (s : Subject) (i : Nat) : Anchor → Bool
  | .textStart => i == 0
  | .textEnd => i == s.text.size
  | .lastLineEnd => i == s.text.size || (i + 1 == s.text.size && s.isNewline i)
  | .lineStart => i == 0 || (i < s.text.size && s.isNewline (i - 1))
  | .lineEnd => i == s.text.size || s.isNewline i
  | .wordBoundary => s.isWordBoundary i
  | .notWordBoundary => !s.isWordBoundary i
  | .searchStart => i == s.searchStart

/-! ## Texts -/

/-- Where the text `cs` ends that stands at `i`. -/
def after? (s : Subject) (cs : List Char) (i : Nat) : Option Nat :=
  match cs with
  | [] => some i
  | c :: cs => if s.text[i]? = some c then s.after? cs (i + 1) else none

/-- Whether there are `n` bytes from `i` on. -/
def hasBytes (s : Subject) (n i : Nat) : Bool :=
  if n = 0 then true
  else if h : i < s.text.size then s.hasBytes (n - s.text[i].utf8Size) (i + 1)
  else false
termination_by s.text.size - i

/-- The code that the first `n` bytes of `c` stand for by themselves. -/
def codeOfBytes (c : Char) (n : Nat) : Nat :=
  if c.utf8Size = 2 then 0xC0 + c.toNat / 0x40
  else if c.utf8Size = 3 then if n = 2 then c.toNat / 0x40 else 0xE0 + c.toNat / 0x1000
  else if n = 3 then c.toNat / 0x40
  else if n = 2 then 0x400 + c.toNat / 0x1000
  else 0xF0 + c.toNat / 0x40000

/-- What `c` folds to where `n` bytes are left to compare. If it takes more, the
bytes that are left decide, as far as they fold to something. -/
def foldWithin (n : Nat) (c : Char) : List Char :=
  if c.utf8Size ≤ n ∨ c.utf8Size = 1 then Unicode.fold c
  else
    let part := Char.ofNat (codeOfBytes c n)
    if Unicode.fold part = [part] then [c] else Unicode.fold part

/-- Where the text from `i` on ends that folds as the text from `j` to `stop` does,
character by character, of which `n` bytes are left to compare. -/
def afterFolded? (s : Subject) (stop j n i : Nat) : Option Nat :=
  if stop ≤ j then some i
  else if n = 0 then none
  else
    match s.text[j]?, s.text[i]? with
    | some a, some b =>
      if Unicode.fold a = foldWithin n b then
        s.afterFolded? stop (j + 1) (n - b.utf8Size) (i + 1)
      else none
    | _, _ => none
termination_by stop - j

/-- The characters of a span. -/
def slice (s : Subject) (span : Span) : List Char :=
  (s.text.extract span.start span.stop).toList

/-- Where the first of the groups that took part and stands here again ends. The
text must be long enough for the first that took part. -/
def afterReference? (s : Subject) (anyCase : Bool) (groups : List Nat) (g : Captured) (i : Nat) :
    Option Nat :=
  match groups with
  | [] => none
  | n :: groups =>
    match g[n - 1]? with
    | some (some span) =>
      let size := ((s.slice span).map Char.utf8Size).foldl Nat.add 0
      if s.hasBytes size i then
        let after :=
          if anyCase then s.afterFolded? span.stop span.start size i
          else s.after? (s.slice span) i
        match after with
        | some j => some j
        | none => s.afterReference? anyCase groups g i
      else none
    | _ => s.afterReference? anyCase groups g i

/-- Passes over one character with the property `p`. -/
def step (s : Subject) (p : Char → Bool) (i : Nat) (g : Captured)
    (k : Nat → Captured → Option Reached) : Option Reached :=
  match s.text[i]? with
  | some c => if p c then k (i + 1) g else none
  | none => none

end Subject

/-! ## Loops -/

/-- How many of the watched groups do not hold an empty text. -/
def unsettled (watched : List Nat) (g : Captured) : Nat :=
  watched.countP fun n =>
    match g[n - 1]? with
    | some (some span) => span.start != span.stop
    | _ => true

/-- Whether a turn that consumed nothing, from `g` to `g'`, counts for nothing. -/
def isIdle (watched : List Nat) (g g' : Captured) : Bool :=
  unsettled watched g ≤ unsettled watched g'

/-- Whether a watched group differs. -/
def differs (watched : List Nat) (g g' : Captured) : Bool :=
  watched.any fun n => g[n - 1]? != g'[n - 1]?

/-- The positions at most `n` before `i` that are in the text, nearest first. -/
def backFrom (i : Nat) : (n : Nat) → List Nat
  | 0 => [i]
  | n + 1 => if i = 0 then [i] else i :: backFrom (i - 1) n

/-- Where `least` to `most` characters before `i` start, nearest first. -/
def startsBefore (least : Nat) (most : Option Nat) (i : Nat) : List Nat :=
  if i < least then [] else backFrom (i - least) ((most.getD i) - least)

@[grind =] theorem getD_map_pred (max : Option Nat) :
    (max.map (· - 1)).getD 0 = max.getD 0 - 1 := by
  cases max <;> rfl

/-- Follows `p` from position `i` and goes on with `k`. A group is unset while it
is open. -/
def run (s : Subject) (p : Plan) (i : Nat) (g : Captured)
    (k : Nat → Captured → Option Reached) : Option Reached :=
  match p with
  | .text cs =>
    match s.after? cs i with
    | some j => k j g
    | none => none
  | .set cs => s.step cs.contains i g k
  | .anchor a => if s.holds i a then k i g else none
  | .seq a b => run s a i g fun j g => run s b j g k
  | .alt a b =>
    match run s a i g k with
    | some e => some e
    | none => run s b i g k
  | .group n body =>
    run s body i (g.set (n - 1) none) fun j g => k j (g.set (n - 1) (some ⟨i, j⟩))
  | .loop body (min + 1) max greedy counted watched =>
    run s body i g fun j g' =>
      if counted ∧ j ≤ i ∧ isIdle watched g g' then
        if differs watched g g' then none else k j g'
      else run s (.loop body min (max.map (· - 1)) greedy counted watched) j g' k
  | .loop _ 0 (some 0) _ _ _ => k i g
  | .loop body 0 (some (max + 1)) true counted watched =>
    match run s body i g fun j g' =>
        if counted ∧ j ≤ i ∧ isIdle watched g g' then
          if differs watched g g' then none else k j g'
        else run s (.loop body 0 (some max) true counted watched) j g' k with
    | some e => some e
    | none => k i g
  | .loop body 0 (some (max + 1)) false counted watched =>
    match k i g with
    | some e => some e
    | none => run s body i g fun j g' =>
        if counted ∧ j ≤ i ∧ isIdle watched g g' then
          if differs watched g g' then none else k j g'
        else run s (.loop body 0 (some max) false counted watched) j g' k
  | .loop body 0 none true counted watched =>
    match run s body i g fun j g' =>
        if i < j ∧ j ≤ s.text.size then
          run s (.loop body 0 none true counted watched) j g' k
        else if unsettled watched g' < unsettled watched g then
          run s (.loop body 0 none true counted watched) i g' k
        else if differs watched g g' then none else k i g' with
    | some e => some e
    | none => k i g
  | .loop body 0 none false counted watched =>
    match k i g with
    | some e => some e
    | none => run s body i g fun j g' =>
        if i < j ∧ j ≤ s.text.size then
          run s (.loop body 0 none false counted watched) j g' k
        else if unsettled watched g' < unsettled watched g then
          run s (.loop body 0 none false counted watched) i g' k
        else if differs watched g g' then none else k i g'
  | .atomic body =>
    match run s body i g fun j g => some ⟨j, g⟩ with
    | some e => k e.stop e.groups
    | none => none
  | .ahead negated body =>
    match run s body i g fun j g => some ⟨j, g⟩ with
    | some e => if negated then none else k i e.groups
    | none => if negated then k i g else none
  | .behind negated least most body =>
    let found := (startsBefore least most i).findSome? fun j =>
      run s body j g fun e g => if e = i then some ⟨e, g⟩ else none
    match found with
    | some e => if negated then none else k i e.groups
    | none => if negated then k i g else none
  | .backreference groups anyCase =>
    match s.afterReference? anyCase groups g i with
    | some j => k j g
    | none => none
termination_by (p.size, s.text.size - i, match p with
  | .loop _ _ _ _ _ watched => unsettled watched g
  | _ => 0)
decreasing_by
  all_goals simp only [Prod.lex_def, Plan.size]
  all_goals grind

/-! ## Bounds -/

@[grind →] theorem Subject.after?_bounds {s : Subject} {cs : List Char} {i j : Nat}
    (h : s.after? cs i = some j) : i ≤ j ∧ (i ≤ s.text.size → j ≤ s.text.size) := by
  induction cs generalizing i with
  | nil => simp [Subject.after?] at h; omega
  | cons c cs ih =>
    simp only [Subject.after?] at h
    split at h
    · rename_i hc
      have hi : i < s.text.size := by grind
      have := ih h
      omega
    · simp at h

@[grind →] theorem Subject.afterFolded?_bounds {s : Subject} {stop n j i i' : Nat}
    (h : s.afterFolded? stop j n i = some i') :
    i ≤ i' ∧ (i ≤ s.text.size → i' ≤ s.text.size) := by
  fun_induction s.afterFolded? stop j n i with
  | case1 => simp at h; omega
  | case2 => simp at h
  | case3 j n i hj hn a b ha hb hab ih =>
    have hi : i < s.text.size := by grind
    have := ih h
    omega
  | case4 => simp at h
  | case5 => simp at h

@[grind →] theorem Subject.of_step {s : Subject} {p : Char → Bool} {i : Nat} {g : Captured}
    {k : Nat → Captured → Option Reached} {e : Reached} (h : s.step p i g k = some e) :
    ∃ j g', i ≤ j ∧ j ≤ s.text.size ∧ k j g' = some e := by
  unfold Subject.step at h
  grind

@[grind →] theorem Subject.afterReference?_bounds {s : Subject} {anyCase : Bool} {groups : List Nat}
    {g : Captured} {i j : Nat} (h : s.afterReference? anyCase groups g i = some j) :
    i ≤ j ∧ (i ≤ s.text.size → j ≤ s.text.size) := by
  induction groups with
  | nil => simp [Subject.afterReference?] at h
  | cons n groups ih =>
    unfold Subject.afterReference? at h
    grind

/-- What was found was found by going on from a later position of the text. -/
theorem of_run {s : Subject} {p : Plan} {i : Nat} {g : Captured}
    {k : Nat → Captured → Option Reached} {e : Reached} (hi : i ≤ s.text.size)
    (h : run s p i g k = some e) : ∃ j g', i ≤ j ∧ j ≤ s.text.size ∧ k j g' = some e := by
  fun_induction run s p i g k generalizing e
  all_goals grind

end Highlight.Regex
