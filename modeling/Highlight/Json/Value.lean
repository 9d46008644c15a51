/-!
# JSON as far as it goes

A text that is not JSON is still read up to its first fault, and the value
holds the fault at its place. Whoever takes a value apart in reading order so
meets the first problem first, be it a fault of the text or a value of the
wrong type.
-/

namespace Highlight.Json

/-- Why a text is refused. -/
inductive Problem where
  /-- It is not JSON. -/
  | malformed
  /-- It ends too early. -/
  | truncated
  /-- It is JSON but holds a value of another type than asked for. -/
  | wrongType
  deriving DecidableEq, Repr

def Problem.message : Problem → String
  | malformed => "not JSON"
  | truncated => "the text ends too early"
  | wrongType => "a value of the wrong type"

/-- A fault of the text. Skipping is less strict than reading, so the two may
report it differently. -/
structure Fault where
  read : Problem
  skipped : Problem
  deriving DecidableEq, Repr

namespace Fault

def malformed : Fault := ⟨.malformed, .malformed⟩

def truncated : Fault := ⟨.truncated, .truncated⟩

/-- Where more was expected: the end of the text or something else. -/
def before (rest : List Char) : Fault :=
  if rest.isEmpty then truncated else malformed

end Fault

/-- The number `± significand · 10 ^ exponent`, up to digits that the significand has
no room for. -/
structure Number where
  negative : Bool
  significand : Nat
  exponent : Int
  /-- Written without point and exponent. -/
  plain : Bool
  deriving DecidableEq, Repr

/-- How the items of an array or an object end. -/
inductive Finish where
  | closed
  /-- Neither a comma nor the closing bracket follows. -/
  | broken (fault : Fault)
  /-- Nothing follows a comma. -/
  | afterComma (fault : Fault)
  deriving DecidableEq, Repr

inductive Value where
  | null
  | bool (value : Bool)
  | number (value : Number)
  /-- A string; without a text if an escape is half of a surrogate pair. -/
  | string (text : Option String)
  | array (items : List Value) (finish : Finish)
  | object (members : List (Option String × Value)) (finish : Finish)
  /-- The place of the first fault. -/
  | broken (fault : Fault)

instance : Inhabited Value := ⟨.null⟩

namespace Number

/-- The nearest number to `n` of which all but 53 binary digits are zero; of two, the one whose
last such digit is zero. -/
def rounded (n : Nat) : Nat :=
  let unit := Nat.pow 2 (n.log2 - 52)
  let half := unit / 2
  let kept := n / unit
  let up := half < n % unit || (0 < half && n % unit == half && kept % 2 == 1)
  (if up then kept + 1 else kept) * unit

/-- The least magnitude that rounds to no finite number of 64 bits. -/
def overflowBound : Nat :=
  Nat.pow 2 1024 - Nat.pow 2 970

/-- The greatest power of ten that is finite in 64 bits. -/
def maxPower : Nat := 308

/-- Whether the magnitude is too large to be read: the significand and the power of
ten are rounded, and their product must be finite. -/
def overflows (n : Number) : Bool :=
  if n.significand = 0 ∨ n.exponent < 0 then false
  else if (maxPower : Int) < n.exponent then true
  else overflowBound ≤ rounded n.significand * rounded (Nat.pow 10 n.exponent.toNat)

/-- The value of a plain number in the range of 64 bits; a zero with a sign is
no integer. -/
def int64? (n : Number) : Option Int :=
  let value : Int := if n.negative then -n.significand else n.significand
  if n.plain && n.exponent == 0 && !(n.negative && n.significand == 0) &&
      -0x8000000000000000 ≤ value && value < 0x8000000000000000 then
    some value
  else none

end Number

end Highlight.Json
