import Highlight.Json.Value
import Highlight.Text.Digits
import Highlight.Text.Lines

/-!
# Reading JSON text

Each step returns what it read and, unless it met a fault, the rest of the
text, which is shorter. Reading is linear and total.
-/

namespace Highlight.Json

open Text (hexValue? numberOf maxNumber)

/-- What was read, and the rest of a text of which `length` characters were
left; there is no rest after a fault. -/
structure Reading (α : Type) (length : Nat) where
  value : α
  rest : Option { cs : List Char // cs.length < length }

def isSpace (c : Char) : Bool :=
  c == ' ' || c == '\n' || c == '\t' || c == '\r'

def skipSpace (cs : List Char) : List Char :=
  cs.dropWhile isSpace

theorem length_dropWhile_le {α : Type} (p : α → Bool) (l : List α) :
    (l.dropWhile p).length ≤ l.length :=
  (List.dropWhile_suffix p).length_le

theorem length_skipSpace_le (cs : List Char) : (skipSpace cs).length ≤ cs.length :=
  length_dropWhile_le isSpace cs

/-! ## Words and numbers -/

/-- Reads the rest of a word such as `null`. -/
def word (value : Value) : (expected cs : List Char) → Value × Option (List Char)
  | [], cs => (value, some cs)
  | _ :: _, [] => (.broken .truncated, none)
  | e :: es, c :: cs => if e = c then word value es cs else (.broken .malformed, none)

theorem word_length {value : Value} {expected cs rest : List Char}
    (h : (word value expected cs).2 = some rest) : rest.length ≤ cs.length := by
  fun_induction word value expected cs <;> simp_all
  omega

/-- Digits and what follows them; skipping finds a number malformed even where
the text ends. -/
def digits (cs : List Char) : Except Fault (List Char × List Char) :=
  match cs.takeWhile Char.isDigit with
  | [] => .error ⟨if cs.isEmpty then .truncated else .malformed, .malformed⟩
  | ds => .ok (ds, cs.dropWhile Char.isDigit)

/-- The digits after a point, if there is one. -/
def fraction : List Char → Except Fault (List Char × List Char)
  | '.' :: cs => digits cs
  | cs => .ok ([], cs)

/-- Whether a minus stands in front, and what follows the sign. -/
def signed : List Char → Bool × List Char
  | '-' :: cs => (true, cs)
  | '+' :: cs => (false, cs)
  | cs => (false, cs)

/-- The exponent, if there is one. -/
def exponent : List Char → Except Fault (Option Int × List Char)
  | [] => .ok (none, [])
  | c :: cs =>
    if c = 'e' || c = 'E' then
      match digits (signed cs).2 with
      | .error fault => .error fault
      | .ok (ds, rest) =>
        .ok (some (if (signed cs).1 then -(numberOf 10 ds : Int) else numberOf 10 ds), rest)
    else .ok (none, c :: cs)

/-- The number that `n` and then digits write as far as it is at most `maxNumber`, and
the number of digits that have no room. -/
def leading (n : Nat) : (ds : List Char) → Nat × Nat
  | [] => (n, 0)
  | d :: ds =>
    if numberOf 10 [d] + 10 * n ≤ maxNumber then leading (numberOf 10 [d] + 10 * n) ds
    else (n, ds.length + 1)

/-- A number after its sign. A zero at the front is the whole integer part. -/
def number (negative : Bool) (cs : List Char) : Except Fault (Number × List Char) :=
  match digits cs with
  | .error fault => .error fault
  | .ok (whole, cs) =>
    if whole.head? = some '0' && whole.length != 1 then .error .malformed
    else match fraction cs with
      | .error fault => .error fault
      | .ok (part, cs) =>
        match exponent cs with
        | .error fault => .error fault
        | .ok (power, cs) =>
          let (n, dropped) := leading 0 whole
          let (n, unread) := leading n part
          .ok (⟨negative, n, power.getD 0 + dropped + unread - part.length,
            part.isEmpty && power.isNone⟩, cs)

theorem digits_length {cs ds rest : List Char} (h : digits cs = .ok (ds, rest)) :
    rest.length < cs.length := by
  unfold digits at h
  split at h
  · simp at h
  · rename_i ds' hne
    simp only [Except.ok.injEq, Prod.mk.injEq] at h
    obtain ⟨rfl, rfl⟩ := h
    have hsum := congrArg List.length (List.takeWhile_append_dropWhile (p := Char.isDigit) (l := cs))
    rw [List.length_append] at hsum
    have : 0 < (cs.takeWhile Char.isDigit).length := List.length_pos_iff.mpr hne
    omega

theorem fraction_length {cs ds rest : List Char} (h : fraction cs = .ok (ds, rest)) :
    rest.length ≤ cs.length := by
  unfold fraction at h
  split at h
  · have := digits_length h
    simp only [List.length_cons]; omega
  · simp only [Except.ok.injEq, Prod.mk.injEq] at h
    simp [h.2]

theorem signed_length (cs : List Char) : (signed cs).2.length ≤ cs.length := by
  unfold signed; split <;> simp

theorem exponent_length {cs rest : List Char} {e : Option Int} (h : exponent cs = .ok (e, rest)) :
    rest.length ≤ cs.length := by
  unfold exponent at h
  split at h
  · simp only [Except.ok.injEq, Prod.mk.injEq] at h; simp [← h.2]
  · rename_i c cs
    split at h
    · split at h
      · simp at h
      · rename_i ds rest' hd
        simp only [Except.ok.injEq, Prod.mk.injEq] at h
        have h₁ := digits_length hd
        have h₂ := signed_length cs
        rw [← h.2, List.length_cons]; omega
    · simp only [Except.ok.injEq, Prod.mk.injEq] at h; simp [← h.2]

theorem number_length {negative : Bool} {cs rest : List Char} {n : Number}
    (h : number negative cs = .ok (n, rest)) : rest.length < cs.length := by
  unfold number at h
  split at h
  · simp at h
  · rename_i whole cs₁ h₁
    have := digits_length h₁
    split at h
    · simp at h
    · split at h
      · simp at h
      · rename_i part cs₂ h₂
        have := fraction_length h₂
        split at h
        · simp at h
        · rename_i power cs₃ h₃
          have := exponent_length h₃
          simp only [Except.ok.injEq, Prod.mk.injEq] at h
          rw [← h.2]; omega

/-! ## Strings -/

/-- The number that the next four characters write in hexadecimal. What is
left is too short if it has less than four bytes. -/
def hex4 (cs : List Char) : Except Problem (Nat × List Char) :=
  match cs with
  | a :: b :: c :: d :: rest =>
    match hexValue? a, hexValue? b, hexValue? c, hexValue? d with
    | some a, some b, some c, some d => .ok (((a * 16 + b) * 16 + c) * 16 + d, rest)
    | _, _, _, _ => .error .malformed
  | _ => .error (if Text.byteCount cs < 4 then .truncated else .malformed)

@[grind →] theorem hex4_length {cs rest : List Char} {n : Nat} (h : hex4 cs = .ok (n, rest)) :
    rest.length < cs.length := by
  unfold hex4 at h
  split at h
  · split at h
    · simp only [Except.ok.injEq, Prod.mk.injEq] at h
      simp only [List.length_cons, h.2]; omega
    · simp at h
  · simp at h

/-- The character that stands after a backslash for another one. -/
def escaped? : Char → Option Char
  | '"' => some '"'
  | '\\' => some '\\'
  | '/' => some '/'
  | 'b' => some '\x08'
  | 'f' => some '\x0c'
  | 'n' => some '\n'
  | 'r' => some '\r'
  | 't' => some '\t'
  | _ => none

/-- A string that ended, or the fault in it. The text is absent if an escape
is half of a surrogate pair, which only a reader minds. -/
abbrev StringReading := Except Fault (Option (List Char) × List Char)

/-- A fault in a string whose text so far, if any, is given. -/
def stringFault (text : Option (List Char)) (p : Problem) : Fault :=
  ⟨if text.isSome then p else .malformed, p⟩

/-- The character of an escape, whose digits come next, and the text after it. It
is absent for half of a surrogate pair; a first half is completed by the escape
that follows it. -/
def unicodeEscape (cs : List Char) : Except Problem (Option Char × List Char) :=
  match hex4 cs with
  | .error p => .error p
  | .ok (n, rest) =>
    if 0xDC00 ≤ n && n ≤ 0xDFFF then .ok (none, rest)
    else if 0xD800 ≤ n && n ≤ 0xDBFF then
      match rest with
      | [] | ['\\'] => .error .truncated
      | '\\' :: 'u' :: rest =>
        match hex4 rest with
        | .error p => .error p
        | .ok (low, rest) =>
          if 0xDC00 ≤ low && low ≤ 0xDFFF then
            .ok (some (Char.ofNat ((n - 0xD800) * 0x400 + (low - 0xDC00) + 0x10000)), rest)
          else .ok (none, rest)
      | rest => .ok (none, rest)
    else .ok (some (Char.ofNat n), rest)

@[grind →] theorem unicodeEscape_length {cs rest : List Char} {c : Option Char}
    (h : unicodeEscape cs = .ok (c, rest)) : rest.length < cs.length := by
  unfold unicodeEscape at h
  split at h
  · cases h
  · rename_i n rest' h₁
    have := hex4_length h₁
    split at h
    · cases h
      exact this
    · split at h
      · split at h
        · cases h
        · cases h
        · split at h
          · cases h
          · rename_i h₂
            have := hex4_length h₂
            simp only [List.length_cons] at *
            split at h <;> cases h <;> omega
        · cases h
          exact this
      · cases h
        exact this

/-- Reads a string after its opening quote. The characters read so far are
given last first. -/
def string (text : Option (List Char)) : List Char → StringReading
  | [] => .error (stringFault text .truncated)
  | '"' :: cs => .ok (text.map List.reverse, cs)
  | '\\' :: [] => .error (stringFault text .truncated)
  | '\\' :: 'u' :: cs =>
    match _h : unicodeEscape cs with
    | .error p => .error (stringFault text p)
    | .ok (none, cs) => string none cs
    | .ok (some c, cs) => string (text.map (c :: ·)) cs
  | '\\' :: c :: cs =>
    match escaped? c with
    | some e => string (text.map (e :: ·)) cs
    | none => .error (stringFault text .malformed)
  | c :: cs =>
    if c < ' ' then .error (stringFault text .malformed)
    else string (text.map (c :: ·)) cs
termination_by cs => cs.length
decreasing_by
  all_goals simp only [List.length_cons]
  · have := unicodeEscape_length _h
    omega
  · have := unicodeEscape_length _h
    omega
  · omega
  · omega

@[grind →] theorem string_length {text r : Option (List Char)} {cs rest : List Char}
    (h : string text cs = .ok (r, rest)) : rest.length < cs.length := by
  fun_induction string text cs <;> grind

/-! ## Values -/

/-- Reads a value that is neither array nor object. -/
def scalar : List Char → Value × Option (List Char)
  | [] => (.broken .truncated, none)
  | 'n' :: cs => word .null ['u', 'l', 'l'] cs
  | 't' :: cs => word (.bool true) ['r', 'u', 'e'] cs
  | 'f' :: cs => word (.bool false) ['a', 'l', 's', 'e'] cs
  | '"' :: cs =>
    match string (some []) cs with
    | .error fault => (.broken fault, none)
    | .ok (text, rest) => (.string (text.map String.ofList), some rest)
  | '-' :: cs =>
    match number true cs with
    | .error fault => (.broken fault, none)
    | .ok (n, rest) => (.number n, some rest)
  | c :: cs =>
    if c.isDigit then
      match number false (c :: cs) with
      | .error fault => (.broken fault, none)
      | .ok (n, rest) => (.number n, some rest)
    else (.broken .malformed, none)

theorem scalar_length {cs rest : List Char} (h : (scalar cs).2 = some rest) :
    rest.length < cs.length := by
  unfold scalar at h
  split at h
  · simp at h
  · have := word_length h; simp only [List.length_cons]; omega
  · have := word_length h; simp only [List.length_cons]; omega
  · have := word_length h; simp only [List.length_cons]; omega
  · split at h
    · simp at h
    · rename_i hs
      have := string_length hs
      simp only [Option.some.injEq] at h
      simp only [List.length_cons, ← h]; omega
  · split at h
    · simp at h
    · rename_i hn
      have := number_length hn
      simp only [Option.some.injEq] at h
      simp only [List.length_cons, ← h]; omega
  · split at h
    · split at h
      · simp at h
      · rename_i hn
        have := number_length hn
        simp only [Option.some.injEq] at h
        simp only [← h]; omega
    · simp at h

/-- What stands after the blanks is shorter by its first character. -/
@[grind →] theorem length_of_skipSpace {cs rest : List Char} {c : Char}
    (h : skipSpace cs = c :: rest) : rest.length < cs.length := by
  have := length_skipSpace_le cs
  rw [h, List.length_cons] at this
  omega

mutual

/-- Reads a value after blanks. -/
def value (cs : List Char) : Reading Value cs.length :=
  match h : skipSpace cs with
  | '[' :: rest =>
    let r := items true rest
    ⟨.array r.value.1 r.value.2,
      r.rest.map fun tail => ⟨tail.val, by have := tail.property; grind⟩⟩
  | '{' :: rest =>
    let r := members true rest
    ⟨.object r.value.1 r.value.2,
      r.rest.map fun tail => ⟨tail.val, by have := tail.property; grind⟩⟩
  | start =>
    ⟨(scalar start).1, (scalar start).2.pmap (fun tail ht => ⟨tail, ht⟩) fun tail ht => by
      have := scalar_length ht
      have := length_skipSpace_le cs
      rw [h] at this; omega⟩
termination_by (cs.length, 0)
decreasing_by all_goals grind

/-- Reads the items of an array up to its end: all of them, or those after a
comma. After a fault in an item, nothing more is read. -/
def items (first : Bool) (cs : List Char) : Reading (List Value × Finish) cs.length :=
  match _h : skipSpace cs with
  | [] => ⟨([], if first then .broken .truncated else .afterComma .truncated), none⟩
  | c :: rest =>
    if c = ']' then
      if first then ⟨([], .closed), some ⟨rest, by grind⟩⟩
      else ⟨([], .afterComma .malformed), none⟩
    else
      let item := value cs
      match item.rest with
      | none => ⟨([item.value], .closed), none⟩
      | some ⟨tail, _ht⟩ =>
        match _h' : skipSpace tail with
        | ',' :: tail =>
          let r := items false tail
          ⟨(item.value :: r.value.1, r.value.2),
            r.rest.map fun cs => ⟨cs.val, by have := cs.property; grind⟩⟩
        | ']' :: tail => ⟨([item.value], .closed), some ⟨tail, by grind⟩⟩
        | tail => ⟨([item.value], .broken (.before tail)), none⟩
termination_by (cs.length, 1)
decreasing_by all_goals grind

/-- Reads the members of an object up to its end: all of them, or those after
a comma. After a fault in a member, nothing more is read. -/
def members (first : Bool) (cs : List Char) :
    Reading (List (Option String × Value) × Finish) cs.length :=
  match _h : skipSpace cs with
  | '}' :: rest =>
    if first then ⟨([], .closed), some ⟨rest, by grind⟩⟩ else ⟨([], .broken .malformed), none⟩
  | '"' :: rest =>
    match _hs : string (some []) rest with
    | .error fault => ⟨([], .broken fault), none⟩
    | .ok (key, afterKey) =>
      let name := key.map String.ofList
      match _hc : skipSpace afterKey with
      | ':' :: body =>
        let member := value body
        match member.rest with
        | none => ⟨([(name, member.value)], .closed), none⟩
        | some ⟨tail, _ht⟩ =>
          match _h' : skipSpace tail with
          | ',' :: tail =>
            let r := members false tail
            ⟨((name, member.value) :: r.value.1, r.value.2),
              r.rest.map fun cs => ⟨cs.val, by have := cs.property; grind⟩⟩
          | '}' :: tail => ⟨([(name, member.value)], .closed), some ⟨tail, by grind⟩⟩
          | tail => ⟨([(name, member.value)], .broken (.before tail)), none⟩
      | tail => ⟨([(name, .broken (.before tail))], .closed), none⟩
  | rest => ⟨([], .broken (.before rest)), none⟩
termination_by (cs.length, 1)
decreasing_by all_goals grind

end

/-- A whole text: its value, and whether only blanks follow it. -/
structure Document where
  value : Value
  ended : Bool

def Document.ofText (text : String) : Document :=
  let r := Json.value text.toList
  ⟨r.value, match r.rest with
    | none => true
    | some ⟨tail, _⟩ => (skipSpace tail).isEmpty⟩

end Highlight.Json
