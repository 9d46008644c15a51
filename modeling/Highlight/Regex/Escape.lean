import Highlight.Regex.CharSet
import Highlight.Regex.Error
import Highlight.Text.Digits

/-!
# Characters written by an escape

After a backslash a letter may stand for a control character or a kind, and a
code for a character. A code is that of a character or that of a byte. Where
bytes are written, as many have to follow as the character takes.
-/

namespace Highlight.Regex

open Text (isHex isOctal numberOf)

/-- The control characters that have a letter. -/
def controlOf? : Char → Option Char
  | 't' => some '\t'
  | 'n' => some '\n'
  | 'r' => some '\r'
  | 'f' => some '\x0c'
  | 'v' => some '\x0b'
  | 'a' => some '\x07'
  | 'e' => some '\x1b'
  | _ => none

/-- The kinds of characters that have a letter, with their complements. -/
def kindOf? : Char → Option (CharKind × Bool)
  | 'w' => some (.word, false)
  | 'W' => some (.word, true)
  | 'd' => some (.decimal, false)
  | 'D' => some (.decimal, true)
  | 's' => some (.space, false)
  | 'S' => some (.space, true)
  | 'h' => some (.hexadecimal, false)
  | 'H' => some (.hexadecimal, true)
  | _ => none

/-! ## Bytes -/

/-- The byte that `c` writes after a backslash, by two hexadecimal or three octal
digits at most, and the number of characters after `c` that belong to it. -/
def byteEscape (c : Char) (rest : List Char) : Except Error (Option (Nat × Nat)) :=
  if c = 'x' ∧ rest ≠ [] then
    let ds := (rest.take 2).takeWhile isHex
    .ok (some (numberOf 16 ds, ds.length))
  else if isOctal c then
    let ds := (rest.take 2).takeWhile isOctal
    let byte := numberOf 8 (c :: ds)
    if byte < 0x100 then .ok (some (byte, ds.length)) else .error .tooBigNumber
  else .ok none

/-- The number of bytes of a character that starts with a byte. -/
def sizeOfByte (byte : Nat) : Nat :=
  if byte < 0xC2 then 1
  else if byte < 0xE0 then 2
  else if byte < 0xF0 then 3
  else if byte < 0xF5 then 4
  else 1

/-- The next `n` bytes, and the number of characters that write them. -/
def moreBytes : (n : Nat) → List Char → Except Error (List Nat × Nat)
  | 0, _ => .ok ([], 0)
  | n + 1, '\\' :: c :: rest =>
    match byteEscape c rest with
    | .error e => .error e
    | .ok none => .error .shortCharacter
    | .ok (some (byte, length)) =>
      (moreBytes n (rest.drop length)).map fun r => (byte :: r.1, r.2 + length + 2)
  | _ + 1, _ => .error .shortCharacter

/-- The code of the character that bytes stand for. -/
def codeOfUtf8 (bytes : List Nat) : Except Error Nat :=
  match String.fromUTF8? ⟨(bytes.map Nat.toUInt8).toArray⟩ with
  | none => .error .invalidCodePoint
  | some text =>
    match text.toList with
    | [c] => .ok c.toNat
    | _ => .error .invalidCodePoint

/-! ## Codes -/

/-- The greatest code of a character. -/
def maxCode : Nat := 0x10FFFF

/-- The code of at most eight digits that is written between braces, after the
opening one, and the number of characters from that one on. Without any digit
the letter before the brace stands for itself. -/
def bracedCode (rest : List Char) : Except Error (Nat × Nat) :=
  let ds := (rest.take 8).takeWhile isHex
  if ds = [] then .ok ('x'.toNat, 0)
  else
    match rest.drop ds.length with
    | '\x7d' :: _ => .ok (numberOf 16 ds, ds.length + 2)
    | c :: _ => if isHex c then .error .tooLongCode else .error .invalidCodePoint
    | [] => .error .invalidCodePoint

/-- The code that `c` writes after a backslash, where it stands for no kind,
condition or group, and the number of characters after `c` that belong to it. -/
def escapedCode (c : Char) (rest : List Char) : Except Error (Nat × Nat) :=
  match controlOf? c with
  | some control => .ok (control.toNat, 0)
  | none =>
    if c = 'x' ∧ rest.head? = some '\x7b' then bracedCode (rest.drop 1)
    else if c = 'u' ∧ rest ≠ [] then
      let ds := (rest.take 4).takeWhile isHex
      if ds.length = 4 then .ok (numberOf 16 ds, 4) else .error .invalidCodePoint
    else
      match byteEscape c rest with
      | .error e => .error e
      | .ok none => .ok (c.toNat, 0)
      | .ok (some (byte, length)) =>
        match moreBytes (sizeOfByte byte - 1) (rest.drop length) with
        | .error e => .error e
        | .ok (bytes, more) => (codeOfUtf8 (byte :: bytes)).map (·, length + more)

end Highlight.Regex
