import Highlight.Regex.Escape
import Highlight.Regex.Syntax

/-!
# Reading character classes

A class lists characters, ranges, kinds and other classes between brackets.
A dash is a range only between two characters.
-/

namespace Highlight.Regex

/-- What is left of a text of `n` characters. -/
abbrev AtMost (n : Nat) := { cs : List Char // cs.length ≤ n }

namespace AtMost

variable {m n : Nat}

def weaken (r : AtMost m) (h : m ≤ n) : AtMost n :=
  ⟨r.1, Nat.le_trans r.2 h⟩

theorem length_lt (r : AtMost n) {c : Char} {cs : List Char} (h : r.1 = c :: cs) :
    cs.length < n := by
  have := r.2
  rw [h] at this
  exact this

end AtMost

/-! ## Parts of a class -/

inductive ClassPart where
  | close
  | dash
  | and
  | openClass
  | char (code : Nat)
  | kind (kind : CharKind) (negated : Bool)

/-- The kinds that are written between colons. -/
def namedKinds : List (String × CharKind) :=
  [("alpha", .alphabetic), ("alnum", .alphanumeric), ("ascii", .ascii), ("blank", .blank),
    ("cntrl", .control), ("digit", .decimal), ("xdigit", .hexadecimal), ("space", .space),
    ("word", .word)]

/-- The kind that is named up to `:]`, and the length of that. -/
def namedKind? (cs : List Char) : Option (CharKind × Nat) :=
  namedKinds.findSome? fun (name, kind) =>
    let text := name.toList ++ [':', ']']
    if text.isPrefixOf cs then some (kind, text.length) else none

/-- Whether `:]` comes before any other closing bracket. -/
def endsInColon : List Char → Bool
  | ':' :: ']' :: _ => true
  | ']' :: _ => false
  | '\\' :: _ :: cs => endsInColon cs
  | _ :: cs => endsInColon cs
  | [] => false

/-- The part that an opening bracket starts: a named kind or another class. -/
def bracketPart (rest : List Char) : Except Error (ClassPart × Nat) :=
  match rest with
  | ':' :: named =>
    let negated := named.head? = some '^'
    let named := if negated then named.drop 1 else named
    match namedKind? named with
    | some (kind, n) => .ok (.kind kind negated, n + (if negated then 2 else 1))
    | none => if endsInColon named then .error .unknownKind else .ok (.openClass, 0)
  | _ => .ok (.openClass, 0)

/-- The part of a class that starts with `c`, and the number of characters
after `c` that belong to it. -/
def classPart (c : Char) (rest : List Char) : Except Error (ClassPart × Nat) :=
  if c = ']' then .ok (.close, 0)
  else if c = '-' then .ok (.dash, 0)
  else if c = '[' then bracketPart rest
  else if c = '&' ∧ rest.head? = some '&' then .ok (.and, 1)
  else if c = '\\' then
    match rest with
    | [] => .error .endAtEscape
    | e :: rest =>
      match kindOf? e with
      | some (kind, negated) => .ok (.kind kind negated, 1)
      | none =>
        if e = 'b' then .ok (.char '\x08'.toNat, 1)
        else (escapedCode e rest).map fun r => (.char r.1, r.2 + 1)
  else .ok (.char c.toNat, 0)

/-! ## Classes -/

/-- What is still open at a point of a class. -/
inductive Pending where
  | nothing
  | char (code : Nat)
  /-- A kind, which no range starts with. -/
  | kind
  /-- A character and a dash. -/
  | range (first : Nat)

structure ClassState where
  /-- What the class lists so far, after the last `&&`. -/
  listed : CharSet
  pending : Pending
  /-- What stands before the last `&&`. -/
  limit : Option CharSet

namespace ClassState

def start : ClassState := ⟨.none, .nothing, none⟩

/-- The state with a pending character listed. A pending range is dropped. -/
def settle (s : ClassState) : ClassState :=
  match s.pending with
  | .char code => ⟨.union s.listed (.range code code), .nothing, s.limit⟩
  | _ => ⟨s.listed, .nothing, s.limit⟩

/-- Adds a character by its code. Only a range may end in a code that is too big. -/
def addChar (s : ClassState) (code : Nat) : Except Error ClassState :=
  match s.pending with
  | .range first =>
    if first ≤ code then .ok ⟨.union s.listed (.range first code), .nothing, s.limit⟩
    else .error .emptyRange
  | _ =>
    if maxCode < code then .error .tooBigCode
    else .ok { s.settle with pending := .char code }

def addKind (s : ClassState) (kind : CharKind) (negated : Bool) : Except Error ClassState :=
  match s.pending with
  | .range _ => .error .kindEndsRange
  | _ => .ok ⟨.union s.settle.listed (.ofKind kind negated), .kind, s.limit⟩

def addClass (s : ClassState) (inner : CharSet) : ClassState :=
  { s.settle with listed := .union s.settle.listed inner }

def finish (s : ClassState) : CharSet :=
  match s.limit with
  | none => s.settle.listed
  | some limit => .inter limit s.settle.listed

def intersect (s : ClassState) : ClassState :=
  ⟨.none, .nothing, some s.finish⟩

/-- Whether what is listed ends before `rest`. -/
def endsBefore (rest : List Char) : Except Error Bool :=
  match rest with
  | [] => .ok false
  | c :: rest =>
    match classPart c rest with
    | .error e => .error e
    | .ok (.close, _) | .ok (.and, _) => .ok true
    | .ok _ => .ok false

/-- Adds a dash before `rest`: a range if a character is pending and more is
listed after it. -/
def addDash (s : ClassState) (rest : List Char) : Except Error ClassState :=
  match s.pending, endsBefore rest with
  | .char first, .ok false => .ok ⟨s.listed, .range first, s.limit⟩
  | .kind, .ok false => .error .kindStartsRange
  | .char _, .error e | .kind, .error e => .error e
  | _, _ => s.addChar '-'.toNat

end ClassState

/-- The set that a class lists, and whether a circumflex excludes it. -/
structure ClassReading where
  listed : CharSet
  negated : Bool

def ClassReading.toSet (r : ClassReading) : CharSet :=
  if r.negated then .compl r.listed else r.listed

/-- What follows the circumflex of a class that has one, and whether it has. -/
def classSign (cs : List Char) : Bool × List Char :=
  match cs with
  | '^' :: rest => (true, rest)
  | _ => (false, cs)

/-- The state at the start of the list of a class, and the rest of the list. A
bracket at the start is listed if another one can close the class. -/
def classStart (cs : List Char) : Except Error (ClassState × List Char) :=
  match cs with
  | ']' :: rest =>
    if rest.contains ']' then .ok (⟨.none, .char ']'.toNat, none⟩, rest) else .error .emptyClass
  | _ => .ok (.start, cs)

theorem classSign_length (cs : List Char) : (classSign cs).2.length ≤ cs.length := by
  unfold classSign; split <;> simp

theorem classStart_length {cs rest : List Char} {s : ClassState}
    (h : classStart cs = .ok (s, rest)) : rest.length ≤ cs.length := by
  unfold classStart at h
  split at h
  · split at h
    · simp only [Except.ok.injEq, Prod.mk.injEq] at h; simp [h.2]
    · simp at h
  · simp only [Except.ok.injEq, Prod.mk.injEq] at h; simp [h.2]

mutual

/-- Reads a class after its opening bracket. -/
def readClass (cs : List Char) : Except Error (ClassReading × AtMost cs.length) :=
  match _h : classStart (classSign cs).2 with
  | .error e => .error e
  | .ok (state, rest) =>
    match readParts state rest with
    | .error e => .error e
    | .ok (listed, ⟨rest', h'⟩) =>
      .ok (⟨listed, (classSign cs).1⟩, ⟨rest', by
        have := classSign_length cs
        have := classStart_length _h
        omega⟩)
termination_by (cs.length, 1)
decreasing_by
  have := classSign_length cs
  have := classStart_length _h
  omega

/-- Reads the parts of a class up to its end. -/
def readParts (s : ClassState) (cs : List Char) : Except Error (CharSet × AtMost cs.length) :=
  match cs with
  | [] => .error .unclosedClass
  | c :: rest =>
    match classPart c rest with
    | .error e => .error e
    | .ok (part, n) =>
      match part with
      | .close => .ok (s.finish, ⟨rest, by simp⟩)
      | .openClass =>
        match readClass rest with
        | .error e => .error e
        | .ok (inner, ⟨rest', h⟩) =>
          match readParts (s.addClass inner.toSet) rest' with
          | .error e => .error e
          | .ok (listed, ⟨rest'', h'⟩) => .ok (listed, ⟨rest'', by simp; omega⟩)
      | part =>
        let next :=
          match part with
          | .dash => s.addDash rest
          | .and => .ok s.intersect
          | .char code => s.addChar code
          | .kind kind negated => s.addKind kind negated
          | _ => .ok s
        match next with
        | .error e => .error e
        | .ok s =>
          match readParts s (rest.drop n) with
          | .error e => .error e
          | .ok (listed, ⟨rest', h⟩) => .ok (listed, ⟨rest', by simp at h ⊢; omega⟩)
termination_by (cs.length, 0)
decreasing_by all_goals (simp; omega)

end

end Highlight.Regex
