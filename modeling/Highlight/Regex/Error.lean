/-!
# What can be wrong with a pattern
-/

namespace Highlight.Regex

inductive Error where
  | unclosedGroup
  | unmatchedClose
  | unclosedClass
  | emptyClass
  | emptyRange
  /-- A range of characters that ends in a kind of characters. -/
  | kindEndsRange
  /-- A range of characters that starts with a kind of characters. -/
  | kindStartsRange
  | unknownKind
  | nothingToRepeat
  | notRepeatable
  | tooManyRepeats
  | undefinedName (name : String)
  | undefinedGroup
  | invalidName (name : String)
  | invalidNameCharacter (name : String)
  | emptyName
  | undefinedOption
  | endInGroup
  | endAtEscape
  | invalidCodePoint
  | tooBigCode
  | tooLongCode
  | tooBigNumber
  /-- Bytes that end before the character does which they write. -/
  | shortCharacter
  | invalidCallout
  | invalidCalloutName
  | undefinedCalloutName
  /-- A condition on the text before a position that cannot be tested. -/
  | invalidLookBehind
  deriving DecidableEq, Repr

/-- Names are shown up to this many bytes. -/
def Error.shownBytes : Nat := 27

/-- The longest start of `cs` that has at most `room` bytes, and the bytes of
room that it leaves. -/
def Error.fitting (room : Nat) : List Char → List Char × Nat
  | [] => ([], room)
  | c :: cs =>
    if c.utf8Size ≤ room then
      let (fit, left) := fitting (room - c.utf8Size) cs
      (c :: fit, left)
    else ([], room)

/-- What is wrong with `name`, in words before and after it. A long name is cut
after `shownBytes`, which must not be inside a character. -/
def Error.about (before name after : String) : String :=
  if name.utf8ByteSize ≤ shownBytes then before ++ name ++ after
  else
    match fitting shownBytes name.toList with
    | (fit, 0) => before ++ String.ofList fit ++ "..." ++ after
    | _ => "Onig error string was invalid UTF-8"

def Error.detail : Error → String
  | unclosedGroup => "end pattern with unmatched parenthesis"
  | unmatchedClose => "unmatched close parenthesis"
  | unclosedClass => "premature end of char-class"
  | emptyClass => "empty char-class"
  | emptyRange => "empty range in char class"
  | kindEndsRange => "char-class value at end of range"
  | kindStartsRange => "unmatched range specifier in char-class"
  | unknownKind => "invalid POSIX bracket type"
  | nothingToRepeat => "target of repeat operator is not specified"
  | notRepeatable => "target of repeat operator is invalid"
  | tooManyRepeats => "too big number for repeat range"
  | undefinedName name => about "undefined name <" name "> reference"
  | undefinedGroup => "invalid backref number/name"
  | invalidName name => about "invalid group name <" name ">"
  | invalidNameCharacter name => about "invalid char in group name <" name ">"
  | emptyName => "group name is empty"
  | undefinedOption => "undefined group option"
  | endInGroup => "end pattern in group"
  | endAtEscape => "end pattern at escape"
  | invalidCodePoint => "invalid code point value"
  | tooBigCode => "too big wide-char value"
  | tooLongCode => "too long wide-char value"
  | tooBigNumber => "too big number"
  | shortCharacter => "too short multibyte string"
  | invalidCallout => "invalid callout pattern"
  | invalidCalloutName => "invalid callout name"
  | undefinedCalloutName => "undefined callout name"
  | invalidLookBehind => "invalid pattern in look-behind"

def Error.message (e : Error) : String :=
  "Oniguruma error: " ++ e.detail

end Highlight.Regex
