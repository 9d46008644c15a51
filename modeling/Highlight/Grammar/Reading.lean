import Highlight.Grammar.Source
import Highlight.Json.Reader

/-!
# Reading a grammar

A grammar is read from JSON in reading order, and the first problem decides.
Keys that mean nothing are skipped. A grammar or a rule may also be written as
an array of its fields in a fixed order.
-/

namespace Highlight.Grammar

open Json (Problem Value Finish)

/-- What a value is when it is asked for as one thing or another. -/
structure Views where
  /-- As a text or nothing. -/
  text : Except Problem (Option String)
  /-- As a switch: true, false or a number. -/
  flag : Except Problem Bool
  rule : Except Problem RuleSource
  rules : Except Problem (List RuleSource)
  named : Except Problem (List (String × RuleSource))
  /-- As anything that can be read. -/
  content : Except Problem Unit
  /-- As something to pass over. -/
  skip : Except Problem Unit

/-- Arrays and objects may be nested this deep where they are read. -/
def maxDepth : Nat := 127

/-- Adds an entry to a map; a key that is there gets the new value. -/
def setEntry {α : Type} (entries : List (String × α)) (key : String) (value : α) :
    List (String × α) :=
  if entries.any (·.1 == key) then
    entries.map fun e => if e.1 == key then (key, value) else e
  else entries ++ [(key, value)]

/-! ## Fields -/

inductive TextField where
  | reference | pattern | opening | closing | condition | name | contentName
  deriving DecidableEq, Repr

inductive MapField where
  | captures | openingCaptures | closingCaptures | conditionCaptures | repository
  deriving DecidableEq, Repr

inductive FlagField where
  | closingLast | disabled
  deriving DecidableEq, Repr

inductive RuleField where
  | text (field : TextField)
  | map (field : MapField)
  | patterns
  | flag (field : FlagField)
  deriving DecidableEq, Repr

inductive GrammarField where
  | name | scopeName | patterns | repository
  deriving DecidableEq, Repr

/-- The fields of a rule with their keys, in the order of the array form. -/
def RuleField.all : List (String × RuleField) :=
  [("include", .text .reference), ("match", .text .pattern), ("begin", .text .opening),
    ("end", .text .closing), ("while", .text .condition), ("name", .text .name),
    ("contentName", .text .contentName), ("captures", .map .captures),
    ("beginCaptures", .map .openingCaptures), ("endCaptures", .map .closingCaptures),
    ("whileCaptures", .map .conditionCaptures), ("patterns", .patterns),
    ("repository", .map .repository), ("applyEndPatternLast", .flag .closingLast),
    ("disabled", .flag .disabled)]

/-- The fields of a grammar with their keys, in the order of the array form. -/
def GrammarField.all : List (String × GrammarField) :=
  [("name", .name), ("scopeName", .scopeName), ("patterns", .patterns),
    ("repository", .repository)]

namespace RuleSource

def setText (r : RuleSource) (value : Option String) : TextField → RuleSource
  | .reference => { r with reference := value }
  | .pattern => { r with pattern := value }
  | .opening => { r with opening := value }
  | .closing => { r with closing := value }
  | .condition => { r with condition := value }
  | .name => { r with name := value }
  | .contentName => { r with contentName := value }

def setMap (r : RuleSource) (value : List (String × RuleSource)) : MapField → RuleSource
  | .captures => { r with captures := value }
  | .openingCaptures => { r with openingCaptures := value }
  | .closingCaptures => { r with closingCaptures := value }
  | .conditionCaptures => { r with conditionCaptures := value }
  | .repository => { r with repository := value }

def setFlag (r : RuleSource) (value : Bool) : FlagField → RuleSource
  | .closingLast => { r with closingLast := value }
  | .disabled => { r with disabled := value }

def set (r : RuleSource) (v : Views) : RuleField → Except Problem RuleSource
  | .text field => v.text.map (r.setText · field)
  | .map field => v.named.map (r.setMap · field)
  | .patterns => v.rules.map fun rules => { r with patterns := rules }
  | .flag field => v.flag.map (r.setFlag · field)

end RuleSource

def GrammarSource.set (g : GrammarSource) (v : Views) : GrammarField → Except Problem GrammarSource
  | .name => v.text.map fun text => { g with name := text }
  | .scopeName => v.text.map fun text => { g with scopeName := text }
  | .patterns => v.rules.map fun rules => { g with patterns := rules }
  | .repository => v.named.map fun entries => { g with repository := entries }

/-! ## Records -/

section Records

variable {R F : Type} [DecidableEq F]

/-- The end of the items or members where no more are wanted. -/
def ending : Finish → Except Problem Unit
  | .closed => .ok ()
  | .broken fault => .error fault.read
  | .afterComma fault => .error fault.read

/-- Fills a record from the members of an object. `seen` holds the fields that
were given; a field given twice is of the wrong type as a whole. -/
def ofMembers (fields : List (String × F)) (set : R → Views → F → Except Problem R)
    (finish : Finish) (seen : List F) (record : R) :
    List (Option String × Views) → Except Problem R
  | [] => (ending finish).map fun _ => record
  | (none, _) :: _ => .error .malformed
  | (some key, v) :: rest =>
    match fields.lookup key with
    | none =>
      match v.skip with
      | .error p => .error p
      | .ok () => ofMembers fields set finish seen record rest
    | some field =>
      if field ∈ seen then .error .wrongType
      else match set record v field with
        | .error p => .error p
        | .ok record => ofMembers fields set finish (field :: seen) record rest

/-- Fills a record from the items of an array, which stand for the fields in
order. Fields without an item keep what they are; an item too many is not read. -/
def ofItems (set : R → Views → F → Except Problem R) (finish : Finish) (record : R) :
    List F → List Views → Except Problem R
  | [], [] =>
    match finish with
    | .afterComma _ => .error .malformed
    | _ => (ending finish).map fun _ => record
  | [], _ :: _ => .error .malformed
  | _ :: _, [] => (ending finish).map fun _ => record
  | field :: fields, v :: rest =>
    match set record v field with
    | .error p => .error p
    | .ok record => ofItems set finish record fields rest

end Records

/-- All results in order, or the first problem. -/
def inOrder {α : Type} (finish : Finish) : List (Except Problem α) → Except Problem (List α)
  | [] => (ending finish).map fun _ => []
  | .error p :: _ => .error p
  | .ok a :: rest => (inOrder finish rest).map (a :: ·)

/-- The entries of a map of rules, of which the last with a key counts. -/
def entriesOf (finish : Finish) (entries : List (String × RuleSource)) :
    List (Option String × Views) → Except Problem (List (String × RuleSource))
  | [] => (ending finish).map fun _ => entries
  | (none, _) :: _ => .error .malformed
  | (some key, v) :: rest =>
    match v.rule with
    | .error p => .error p
    | .ok rule => entriesOf finish (setEntry entries key rule) rest

/-- Everything between brackets, read in order. -/
def contentOf (finish : Finish) : List (Option String × Views) → Except Problem Unit
  | [] => ending finish
  | (none, _) :: _ => .error .malformed
  | (some _, v) :: rest =>
    match v.content with
    | .error p => .error p
    | .ok () => contentOf finish rest

/-- Everything between brackets, passed over. -/
def skipOf (finish : Finish) : List Views → Except Problem Unit
  | [] =>
    match finish with
    | .closed => .ok ()
    | .broken fault => .error fault.skipped
    | .afterComma fault => .error fault.skipped
  | v :: rest =>
    match v.skip with
    | .error p => .error p
    | .ok () => skipOf finish rest

/-! ## Values -/

namespace Views

/-- The views of a value that is neither array nor object, where everything but
text and flag has the wrong type once the value is read. -/
def ofScalar (text : Except Problem (Option String)) (flag : Except Problem Bool)
    (content : Except Problem Unit) (skip : Except Problem Unit) : Views :=
  let mistyped {α : Type} : Except Problem α :=
    match content with
    | .error p => .error p
    | .ok () => .error .wrongType
  ⟨text, flag, mistyped, mistyped, mistyped, content, skip⟩

/-- The views of a value with brackets at a depth that may be too deep. -/
def ofBrackets (depth : Nat) (rule : Except Problem RuleSource)
    (rules : Except Problem (List RuleSource)) (named : Except Problem (List (String × RuleSource)))
    (content skip : Except Problem Unit) : Views :=
  let content := if depth < maxDepth then content else .error .malformed
  let flag :=
    match content with
    | .error p => .error p
    | .ok () => .error .wrongType
  ⟨.error .wrongType, flag, rule, rules, named, content, skip⟩

end Views

/-- `r` where another pair of brackets may be opened inside `depth` others. -/
def within {α : Type} (depth : Nat) (r : Except Problem α) : Except Problem α :=
  if depth < maxDepth then r else .error .malformed

mutual

/-- The views of a value inside `depth` brackets. -/
def viewsOf (depth : Nat) : Value → Views
  | .null => .ofScalar (.ok none) (.error .wrongType) (.ok ()) (.ok ())
  | .bool b => .ofScalar (.error .wrongType) (.ok b) (.ok ()) (.ok ())
  | .number n =>
    if n.overflows then
      .ofScalar (.error .malformed) (.error .malformed) (.error .malformed) (.ok ())
    else
      .ofScalar (.error .wrongType)
        (match n.int64? with
          | some value => .ok (value != 0)
          | none => .error .wrongType)
        (.ok ()) (.ok ())
  | .string none => .ofScalar (.error .malformed) (.error .malformed) (.error .malformed) (.ok ())
  | .string (some text) => .ofScalar (.ok (some text)) (.error .wrongType) (.ok ()) (.ok ())
  | .broken fault =>
    .ofScalar (.error fault.read) (.error fault.read) (.error fault.read) (.error fault.skipped)
  | .array items finish =>
    let parts := viewsOfItems (depth + 1) items
    .ofBrackets depth
      (within depth (ofItems RuleSource.set finish .empty (RuleField.all.map (·.2)) parts))
      (within depth (inOrder finish (parts.map (·.rule))))
      (.error .wrongType)
      (contentOf finish (parts.map fun v => (some "", v)))
      (skipOf finish parts)
  | .object members finish =>
    let parts := viewsOfMembers (depth + 1) members
    .ofBrackets depth
      (within depth (ofMembers RuleField.all RuleSource.set finish [] .empty parts))
      (.error .wrongType)
      (within depth (entriesOf finish [] parts))
      (contentOf finish parts)
      (skipOf finish (parts.map (·.2)))

def viewsOfItems (depth : Nat) : List Value → List Views
  | [] => []
  | v :: rest => viewsOf depth v :: viewsOfItems depth rest

def viewsOfMembers (depth : Nat) : List (Option String × Value) → List (Option String × Views)
  | [] => []
  | (key, v) :: rest => (key, viewsOf depth v) :: viewsOfMembers depth rest

end

def GrammarSource.ofValue (value : Value) : Except Problem GrammarSource :=
  match value with
  | .array items finish =>
    ofItems GrammarSource.set finish .empty (GrammarField.all.map (·.2)) (viewsOfItems 1 items)
  | .object members finish =>
    ofMembers GrammarField.all GrammarSource.set finish [] .empty (viewsOfMembers 1 members)
  | scalar =>
    match (viewsOf 0 scalar).content with
    | .error p => .error p
    | .ok () => .error .wrongType

/-- Reads a grammar from its text. Only blanks may follow it. -/
def GrammarSource.ofText (text : String) : Except Problem GrammarSource :=
  let document := Json.Document.ofText text
  match ofValue document.value with
  | .error p => .error p
  | .ok grammar => if document.ended then .ok grammar else .error .malformed

end Highlight.Grammar
