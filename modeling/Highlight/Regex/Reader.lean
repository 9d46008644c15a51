import Highlight.Regex.ClassReader
import Highlight.Regex.Engine

/-!
# Reading patterns

A pattern is alternatives of sequences of repeated parts. Options hold from
where they are written to the end of the group they are written in.
-/

namespace Highlight.Regex

open Text (numberOf)

structure Options where
  anyCase : Bool
  /-- The dot matches a newline too. -/
  dotAll : Bool
  /-- Blanks and comments are ignored. -/
  extended : Bool
  deriving DecidableEq, Repr

def Options.plain : Options := ⟨false, false, false⟩

/-- What is known of the groups of a pattern at a point of it. -/
structure Groups where
  count : Nat
  /-- Names with their groups, in the order of the groups. -/
  names : List (String × Nat)
  /-- The highest group number that is referred to. -/
  highest : Nat
  /-- The groups that are closed, and whether they may match the empty text. -/
  closed : List (Nat × Bool)
  deriving DecidableEq, Repr

namespace Groups

def none : Groups := ⟨0, [], 0, []⟩

def add (g : Groups) : Groups :=
  { g with count := g.count + 1 }

def addNamed (g : Groups) (name : String) : Groups :=
  { g.add with names := g.names ++ [(name, g.count + 1)] }

def close (g : Groups) (number : Nat) (body : Regex) : Groups :=
  { g with closed := (number, body.mayBeEmpty) :: g.closed }

/-- The groups of this name, last first. -/
def named (g : Groups) (name : String) : List Nat :=
  (g.names.filterMap fun (n, number) => if n = name then some number else Option.none).reverse

/-- A reference to one of the groups. What a group matches that is not closed is
not known yet. -/
def refer (g : Groups) (numbers : List Nat) (anyCase : Bool) : Regex × Groups :=
  (backreference numbers anyCase (numbers.any fun n => (g.closed.lookup n).getD true),
    { g with highest := numbers.foldl Nat.max g.highest })

end Groups

/-! ## Blanks and comments -/

inductive Ignoring where
  | nothing
  | line
  | comment

def isIgnoredBlank (c : Char) : Bool :=
  c == ' ' || c == '\t' || c == '\n' || c == '\r' || c == '\x0c'

/-- Drops what means nothing in front of a pattern: comments in parentheses and,
in an extended pattern, blanks and comments up to the end of a line. -/
def skipIgnored (extended : Bool) : Ignoring → List Char → Except Error (List Char)
  | .nothing, '(' :: '?' :: '#' :: cs => skipIgnored extended .comment cs
  | .nothing, c :: cs =>
    if extended && isIgnoredBlank c then skipIgnored extended .nothing cs
    else if extended && c == '#' then skipIgnored extended .line cs
    else .ok (c :: cs)
  | .nothing, [] => .ok []
  | .line, '\n' :: cs => skipIgnored extended .nothing cs
  | .line, _ :: cs => skipIgnored extended .line cs
  | .line, [] => .ok []
  | .comment, '\\' :: _ :: cs => skipIgnored extended .comment cs
  | .comment, ')' :: cs => skipIgnored extended .nothing cs
  | .comment, _ :: cs => skipIgnored extended .comment cs
  | .comment, [] => .error .endInGroup

@[grind →] theorem skipIgnored_length {extended : Bool} {mode : Ignoring} {cs rest : List Char}
    (h : skipIgnored extended mode cs = .ok rest) : rest.length ≤ cs.length := by
  fun_induction skipIgnored extended mode cs <;> grind

/-! ## Repetition -/

structure Quantifier where
  min : Nat
  max : Option Nat
  greedy : Bool
  possessive : Bool

def Quantifier.apply (q : Quantifier) (r : Regex) : Except Error Regex :=
  (r.repeated q.min q.max q.greedy).map fun r => if q.possessive then atomic r else r

/-- The highest count that may be written. -/
def maxCount : Nat := 100000

/-- The sign after a quantifier that makes it lazy or possessive. -/
def Quantifier.marked (q : Quantifier) (n : Nat) (rest : List Char) : Quantifier × Nat :=
  match rest with
  | '?' :: _ => ({ q with greedy := false }, n + 1)
  | '+' :: _ => ({ q with possessive := true }, n + 1)
  | _ => (q, n)

/-- The quantifier that counts between braces, after the opening one, and its
length. A lower count above the upper one means a possessive loop between them;
only other loops with two counts can be lazy. -/
def interval? (cs : List Char) : Except Error (Option (Quantifier × Nat)) :=
  let low := cs.takeWhile Char.isDigit
  let min := numberOf 10 low
  if maxCount < min then .error .tooManyRepeats
  else match cs.drop low.length with
  | '\x7d' :: _ =>
    if low = [] then .ok none else .ok (some (⟨min, some min, true, false⟩, low.length + 1))
  | ',' :: rest =>
    let high := rest.takeWhile Char.isDigit
    let max := numberOf 10 high
    let length := low.length + high.length + 2
    if maxCount < max then .error .tooManyRepeats
    else match rest.drop high.length with
    | '\x7d' :: rest =>
      if low = [] ∧ high = [] then .ok none
      else if high ≠ [] ∧ max < min then .ok (some (⟨max, some min, true, true⟩, length))
      else
        let max := if high = [] then none else some max
        if rest.head? = some '?' then .ok (some (⟨min, max, false, false⟩, length + 1))
        else .ok (some (⟨min, max, true, false⟩, length))
    | _ => .ok none
  | _ => .ok none

/-- The quantifier that starts with `c`, if any, and the number of characters
after `c` that belong to it. -/
def quantifier? (c : Char) (rest : List Char) : Except Error (Option (Quantifier × Nat)) :=
  match c with
  | '*' => .ok (some (Quantifier.marked ⟨0, none, true, false⟩ 0 rest))
  | '+' => .ok (some (Quantifier.marked ⟨1, none, true, false⟩ 0 rest))
  | '?' => .ok (some (Quantifier.marked ⟨0, some 1, true, false⟩ 0 rest))
  | '\x7b' => interval? rest
  | _ => .ok none

/-- What a quantifier after `r` repeats, and what it leaves in front: of a text that
does not count as a whole it repeats the last character. -/
def lastPart (whole : Bool) (r : Regex) : List Regex × Regex :=
  match r with
  | text (c :: d :: cs) anyCase =>
    if whole then ([], r)
    else
      ([text ((c :: d :: cs).dropLast) anyCase], text [(d :: cs).getLastD c] anyCase)
  | _ => ([], r)

/-- The parts that `r` and the quantifiers after it make. A count of one leaves `r`
as it is, but no longer as a whole. -/
def quantified (extended : Bool) (whole : Bool) (r : Regex) (cs : List Char) :
    Except Error (List Regex × AtMost cs.length) :=
  match _h : skipIgnored extended .nothing cs with
  | .error e => .error e
  | .ok [] => .ok ([r], ⟨[], by simp⟩)
  | .ok (c :: rest) =>
    match quantifier? c rest with
    | .error e => .error e
    | .ok none => .ok ([r], ⟨c :: rest, by grind⟩)
    | .ok (some (q, n)) =>
      if r.isCondition then .error .notRepeatable
      else
        let (front, last) :=
          if q.min = 1 ∧ q.max = some 1 then ([], Except.ok r)
          else ((lastPart whole r).1, q.apply (lastPart whole r).2)
        match last with
        | .error e => .error e
        | .ok last =>
          match quantified extended false last (rest.drop n) with
          | .error e => .error e
          | .ok (parts, ⟨rest', h'⟩) => .ok (front ++ parts, ⟨rest', by grind⟩)
termination_by cs.length
decreasing_by grind

/-! ## Names and references -/

/-- The name of a new group before the character `close`. Only its first character
is looked at: it must be a word character, but no digit. -/
def newName (close : Char) (cs : List Char) : Except Error (List Char) :=
  match cs with
  | [] => .error .emptyName
  | c :: tail =>
    let name := c :: tail.takeWhile fun d => d != close && d != ')'
    let rest := cs.drop name.length
    let shown := String.ofList (if rest.length ≤ 1 then cs else name)
    if c = close then .error .emptyName
    else if c.isDigit || c == '-' || c == '+' then .error (.invalidName shown)
    else if !Unicode.isWordOrNumeral c then .error (.invalidNameCharacter shown)
    else if rest.head? = some close then .ok name
    else if rest = [] ∧ tail ≠ [] then .error (.invalidName (String.ofList name.dropLast))
    else .error (.invalidName (String.ofList name))

def isSign (c : Char) : Bool :=
  c == '+' || c == '-'

/-- The name or number before the character `close` that a reference goes by. A
number may have a sign, and is not zero then. -/
def referredName (close : Char) (cs : List Char) : Except Error (List Char) :=
  match cs with
  | [] => .error .emptyName
  | c :: tail =>
    let name := c :: tail.takeWhile fun d => d != close && d != ')' && !isSign d
    let rest := cs.drop name.length
    let shown := String.ofList (if rest = [] ∧ tail ≠ [] then name.dropLast else name)
    let digits := if isSign c then name.tail else name
    let afterNumber := digits.dropWhile Char.isDigit
    if c = close then .error .emptyName
    else if isSign c ∨ c.isDigit then
      if afterNumber ≠ [] then
        if afterNumber.tail.all Unicode.isWordOrNumeral then .error (.invalidName shown)
        else .error (.invalidNameCharacter shown)
      else if digits = [] then
        .error (if rest = [] then .invalidNameCharacter shown else .invalidName shown)
      else if rest.head? ≠ some close ∨ isSign c ∧ numberOf 10 digits = 0 then
        .error (.invalidName (String.ofList cs))
      else .ok name
    else if !name.all Unicode.isWordOrNumeral then .error (.invalidNameCharacter shown)
    else if rest.head? = some close then .ok name
    else .error (.invalidName (String.ofList cs))

/-- The character that ends a name which `c` starts. -/
def nameEnd? : Char → Option Char
  | '<' => some '>'
  | '\'' => some '\''
  | _ => none

/-- The number of the group that a number refers to. With a sign it counts from
the last group that has been opened. -/
def groupOf (g : Groups) (name : List Char) : Nat :=
  match name with
  | '+' :: ds => g.count + numberOf 10 ds
  | '-' :: ds => g.count + 1 - numberOf 10 ds
  | ds => numberOf 10 ds

/-- A reference to the groups of a name, or to the group of a number. -/
def reference (o : Options) (g : Groups) (name : List Char) : Except Error (Regex × Groups) :=
  if name.head?.any fun c => isSign c || c.isDigit then
    if groupOf g name = 0 then .error .undefinedGroup else .ok (g.refer [groupOf g name] o.anyCase)
  else
    match g.named (String.ofList name) with
    | [] => .error (.undefinedName (String.ofList name))
    | numbers => .ok (g.refer numbers o.anyCase)

/-! ## Parts -/

/-- The conditions that have a letter. -/
def anchorOf? : Char → Option Anchor
  | 'b' => some .wordBoundary
  | 'B' => some .notWordBoundary
  | 'A' => some .textStart
  | 'z' => some .textEnd
  | 'Z' => some .lastLineEnd
  | 'G' => some .searchStart
  | _ => none

/-- What a letter after a backslash stands for where it is a part of its own: a kind
or a condition. -/
def letterPart? (c : Char) : Option Regex :=
  match kindOf? c with
  | some (.word, negated) => some (set (.ofKind .wordOrNumeral negated))
  | some (kind, negated) => some (set (.ofKind kind negated))
  | none => (anchorOf? c).map anchor

/-- The number of a group after a backslash, with its length. It refers to a group if
it has one digit or not more groups stand before it. -/
def groupNumber? (g : Groups) (c : Char) (rest : List Char) : Option (Nat × Nat) :=
  let ds := c :: rest.takeWhile Char.isDigit
  let number := numberOf 10 ds
  if c.isDigit ∧ c ≠ '0' ∧ (number ≤ 9 ∨ number ≤ g.count) then some (number, ds.length)
  else none

/-- The character that ends a name after a backslash and `k`. -/
def namedReference? (c : Char) (rest : List Char) : Option Char :=
  if c = 'k' then rest.head?.bind nameEnd? else none

/-- The character of a code. Some codes are no character's, and nothing matches. -/
def partOfCode (o : Options) (code : Nat) : Except Error Regex :=
  if maxCode < code then .error .tooBigCode
  else if code.isValidChar then .ok (text [Char.ofNat code] o.anyCase)
  else .ok (set .none)

/-- The part after a backslash that starts with `c`, and the number of characters
after `c` that belong to it. -/
def escapePart (o : Options) (g : Groups) (c : Char) (rest : List Char) :
    Except Error (Regex × Groups × Nat) :=
  match letterPart? c, groupNumber? g c rest, namedReference? c rest with
  | some r, _, _ => .ok (r, g, 0)
  | none, some (number, n), _ =>
    let (r, g) := g.refer [number] o.anyCase
    .ok (r, g, n - 1)
  | none, none, some close =>
    match referredName close (rest.drop 1) with
    | .error e => .error e
    | .ok name => (reference o g name).map fun r => (r.1, r.2, name.length + 2)
  | none, none, none =>
    match escapedCode c rest with
    | .error e => .error e
    | .ok (code, n) => (partOfCode o code).map (·, g, n)

/-- The character that the text `c :: rest` starts with if that stands for itself, and
the number of characters after `c` that belong to it. -/
def literalStart (g : Groups) (c : Char) (rest : List Char) :
    Except Error (Option (Char × Nat)) :=
  match c with
  | '(' | ')' | '[' | '|' | '.' | '^' | '$' => .ok none
  | '\\' =>
    match rest with
    | [] => .ok none
    | e :: rest =>
      match letterPart? e, groupNumber? g e rest, namedReference? e rest with
      | none, none, none =>
        (escapedCode e rest).map fun r => if r = (e.toNat, 0) then some (e, 1) else none
      | _, _, _ => .ok none
  | c => (quantifier? c rest).map fun q => if q.isSome then none else some (c, 0)

/-- The characters in a row that stand for themselves. -/
def literals (extended : Bool) (g : Groups) (cs : List Char) :
    Except Error (List Char × AtMost cs.length) :=
  match _h : skipIgnored extended .nothing cs with
  | .error e => .error e
  | .ok [] => .ok ([], ⟨[], Nat.zero_le _⟩)
  | .ok (c :: rest) =>
    match literalStart g c rest with
    | .error e => .error e
    | .ok none => .ok ([], ⟨c :: rest, by grind⟩)
    | .ok (some (l, n)) =>
      match literals extended g (rest.drop n) with
      | .error e => .error e
      | .ok (ls, ⟨rest', h'⟩) => .ok (l :: ls, ⟨rest', by grind⟩)
termination_by cs.length
decreasing_by grind

/-- Reads option letters up to the parenthesis or colon that ends them, and
whether it is a colon. -/
def optionLetters (o : Options) (off : Bool) : List Char → Except Error (Options × Bool × List Char)
  | [] => .error .endInGroup
  | ')' :: cs => .ok (o, false, cs)
  | ':' :: cs => .ok (o, true, cs)
  | '-' :: cs => optionLetters o true cs
  | 'i' :: cs => optionLetters { o with anyCase := !off } off cs
  | 'm' :: cs => optionLetters { o with dotAll := !off } off cs
  | 'x' :: cs => optionLetters { o with extended := !off } off cs
  | _ => .error .undefinedOption

@[grind →] theorem optionLetters_length {o o' : Options} {off colon : Bool} {cs rest : List Char}
    (h : optionLetters o off cs = .ok (o', colon, rest)) : rest.length < cs.length := by
  fun_induction optionLetters o off cs <;> grind

/-- What the characters after an opening parenthesis make of it. -/
inductive GroupStart where
  | capture
  | named (name : String)
  | plain
  | withOptions (o : Options)
  | atomic
  | look (behind negated : Bool)
  /-- Options for the rest of the enclosing group. -/
  | options (o : Options)

/-- What is wrong with a callout, after the parenthesis and the star before its name.
No name is defined. -/
def calloutError (cs : List Char) : Error :=
  let name := cs.takeWhile fun c => c != ')' && c != '[' && c != '\x7b'
  if name = cs then .invalidCallout
  else if name = [] ∨ name.head?.any Char.isDigit ∨ !name.all fun c => c.isAlphanum || c == '_' then
    .invalidCalloutName
  else .undefinedCalloutName

/-- What a parenthesis starts, and the text after that. -/
def groupStart (o : Options) (cs : List Char) : Except Error (GroupStart × List Char) :=
  match cs with
  | [] => .error .unclosedGroup
  | ['?'] => .error .endInGroup
  | '*' :: cs => .error (calloutError cs)
  | '?' :: ':' :: cs => .ok (.plain, cs)
  | '?' :: '=' :: cs => .ok (.look false false, cs)
  | '?' :: '!' :: cs => .ok (.look false true, cs)
  | '?' :: '>' :: cs => .ok (.atomic, cs)
  | ['?', '<'] => .error .unclosedGroup
  | '?' :: '<' :: '=' :: cs => .ok (.look true false, cs)
  | '?' :: '<' :: '!' :: cs => .ok (.look true true, cs)
  | '?' :: c :: cs =>
    match nameEnd? c with
    | some close =>
      match newName close cs with
      | .error e => .error e
      | .ok name => .ok (.named (String.ofList name), cs.drop (name.length + 1))
    | none =>
      if c = '-' ∨ c = 'i' ∨ c = 'm' ∨ c = 'x' then
        match optionLetters o false (c :: cs) with
        | .error e => .error e
        | .ok (o, true, rest) => .ok (.withOptions o, rest)
        | .ok (o, false, rest) => .ok (.options o, rest)
      else .error .undefinedOption
  | cs => .ok (.capture, cs)

@[grind →] theorem groupStart_length {o : Options} {start : GroupStart} {cs rest : List Char}
    (h : groupStart o cs = .ok (start, rest)) : rest.length ≤ cs.length := by
  unfold groupStart at h
  grind

namespace GroupStart

/-- The groups inside a group with this start. -/
def enter (start : GroupStart) (g : Groups) : Groups :=
  match start with
  | .capture => g.add
  | .named name => g.addNamed name
  | _ => g

/-- The options inside a group with this start. -/
def optionsIn (start : GroupStart) (o : Options) : Options :=
  match start with
  | .withOptions o => o
  | .options o => o
  | _ => o

/-- Whether there is no group, but options up to the end of the one around. -/
def isOptions : GroupStart → Bool
  | .options _ => true
  | _ => false

/-- The group with this start around `body`, before which `g` groups stood. -/
def wrap (start : GroupStart) (g : Groups) (body : Regex) : Regex :=
  match start with
  | .capture | .named _ => group (g.count + 1) body
  | .withOptions _ | .options _ => Regex.withOptions body
  | .plain => body
  | .atomic => Regex.atomic body
  | .look false negated => ahead negated body
  | .look true negated => behind negated body

/-- What is known of the groups after the group with this start around `body`. -/
def leave (start : GroupStart) (before after : Groups) (body : Regex) : Groups :=
  match start with
  | .capture | .named _ => after.close (before.count + 1) body
  | _ => after

/-- Whether the group counts as a whole for the quantifier after it. -/
def isWhole : GroupStart → Bool
  | .plain => true
  | _ => false

end GroupStart

/-- The part that `c` starts, where that is no group and does not stand for itself,
and the text after it. -/
def simplePart (o : Options) (g : Groups) (c : Char) (rest : List Char) :
    Except Error (Regex × Groups × AtMost rest.length) :=
  match c with
  | '[' =>
    match readClass rest with
    | .error e => .error e
    | .ok (r, rest') =>
      .ok (if o.anyCase then classInAnyCase r.listed r.negated else set r.toSet, g, rest')
  | '.' => .ok (dot o.dotAll, g, ⟨rest, Nat.le_refl _⟩)
  | '^' => .ok (anchor .lineStart, g, ⟨rest, Nat.le_refl _⟩)
  | '$' => .ok (anchor .lineEnd, g, ⟨rest, Nat.le_refl _⟩)
  | '\\' =>
    match rest with
    | [] => .error .endAtEscape
    | e :: rest =>
      match escapePart o g e rest with
      | .error e => .error e
      | .ok (r, g, n) => .ok (r, g, ⟨rest.drop n, by simp; omega⟩)
  | _ => .error .nothingToRepeat

/-! ## Patterns -/

mutual

/-- Reads alternatives up to a closing parenthesis or the end. -/
def readAlternatives (o : Options) (g : Groups) (cs : List Char) :
    Except Error (Regex × Groups × AtMost cs.length) :=
  match readSequence o g cs with
  | .error e => .error e
  | .ok (parts, g, after) =>
    match hafter : after.1 with
    | '|' :: rest =>
      have hrest : rest.length < cs.length := after.length_lt hafter
      match readAlternatives o g rest with
      | .error e => .error e
      | .ok (others, g, rest) =>
        .ok (alt (ofParts parts) others, g, rest.weaken (Nat.le_of_lt hrest))
    | _ => .ok (ofParts parts, g, after)
termination_by (cs.length, 1)
decreasing_by all_goals (simp only [Prod.lex_def, true_and]; omega)

/-- Reads repeated parts up to a bar, a closing parenthesis or the end. -/
def readSequence (o : Options) (g : Groups) (cs : List Char) :
    Except Error (List Regex × Groups × AtMost cs.length) :=
  match hskip : skipIgnored o.extended .nothing cs with
  | .error e => .error e
  | .ok [] => .ok ([], g, ⟨[], Nat.zero_le _⟩)
  | .ok (c :: rest) =>
    have hrest : rest.length < cs.length := skipIgnored_length hskip
    if c = '|' ∨ c = ')' then .ok ([], g, ⟨c :: rest, hrest⟩)
    else if c = '(' then
      match hstart : groupStart o rest with
      | .error e => .error e
      | .ok (start, body) =>
        have hbody : body.length ≤ rest.length := groupStart_length hstart
        match readAlternatives (start.optionsIn o) (start.enter g) body with
        | .error e => .error e
        | .ok (inner, g', after) =>
          if start.isOptions then .ok ([start.wrap g inner], g', after.weaken (by omega))
          else match hafter : after.1 with
            | ')' :: rest' =>
              have hrest' : rest'.length < body.length := after.length_lt hafter
              readRest o (start.leave g g' inner) start.isWhole (start.wrap g inner) cs.length
                rest' (by omega)
            | _ => .error .unclosedGroup
    else
      match literalStart g c rest with
      | .error e => .error e
      | .ok none =>
        match simplePart o g c rest with
        | .error e => .error e
        | .ok (part, g, after) =>
          have hafter : after.1.length ≤ rest.length := after.2
          readRest o g false part cs.length after.1 (by omega)
      | .ok (some (l, n)) =>
        match literals o.extended g (rest.drop n) with
        | .error e => .error e
        | .ok (ls, after) =>
          have hafter : after.1.length ≤ (rest.drop n).length := after.2
          have hdrop : (rest.drop n).length ≤ rest.length := by simp
          readRest o g false (text (l :: ls) o.anyCase) cs.length after.1 (by omega)
termination_by (cs.length, 0)
decreasing_by all_goals (simp only [Prod.lex_def]; omega)

/-- Reads the quantifiers of a part and the sequence after it. -/
def readRest (o : Options) (g : Groups) (whole : Bool) (part : Regex) (n : Nat) (cs : List Char)
    (h : cs.length < n) : Except Error (List Regex × Groups × AtMost n) :=
  match quantified o.extended whole part cs with
  | .error e => .error e
  | .ok (parts, rest) =>
    have hrest : rest.1.length ≤ cs.length := rest.2
    match readSequence o g rest.1 with
    | .error e => .error e
    | .ok (others, g, rest') => .ok (parts ++ others, g, rest'.weaken (by omega))
termination_by (cs.length, 2)
decreasing_by simp only [Prod.lex_def]; omega

end

end Regex

namespace Pattern

open Regex (Error)

/-- Reads an expression and the number of its groups. That a group which is referred
to exists is known at the end only. -/
def regexOf (source : String) : Except Error (Regex × Nat) :=
  match Regex.readAlternatives .plain .none source.toList with
  | .error e => .error e
  | .ok (regex, g, ⟨[], _⟩) =>
    if g.count < g.highest then .error .undefinedGroup
    else if regex.hasUselessGroup then .error .invalidLookBehind
    else .ok (regex, g.count)
  | .ok _ => .error .unmatchedClose

def ofSource (source : String) : Except Error Pattern :=
  (regexOf source).map fun (regex, groups) =>
    let written := regex.joined.spelledOut false
    ⟨source, Plan.ofRegex written.references written, groups⟩

end Pattern

end Highlight
