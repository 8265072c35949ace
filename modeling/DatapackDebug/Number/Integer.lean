import DatapackDebug.Number.Literal

namespace DatapackDebug

/-!
# Numerals of integers

An integer is an optional sign and digits.  A leading `0x`, `0o` or `0b` says that they are
hexadecimal, octal or binary, and a leading `0` alone that they are octal.  Single underscores may
separate digits, and may follow the mark of the base.

* `Integer.ofText` — reads a whole text as a word of 64 bits.
-/

namespace Integer

/-- Why a text is no integer of 64 bits. -/
inductive Fault where
  | malformed
  | outOfRange
deriving DecidableEq, Repr

/-- The wording of the fault. -/
def Fault.message : Fault → Text
  | .malformed => "invalid syntax"
  | .outOfRange => "value out of range"

/-- The base of a numeral without a sign, and its digits. -/
def base : Text → Nat × Text
  | 0x30 :: mark :: b :: t =>
    let letter := Text.toLower mark
    if letter == 'x' then (16, b :: t)
    else if letter == 'o' then (8, b :: t)
    else if letter == 'b' then (2, b :: t)
    else (8, mark :: b :: t)
  | 0x30 :: t => (8, t)
  | t => (10, t)

/-- The value of digits that follow those of the value `n`.  What follows the digit that leaves
    the range of unsigned words is not looked at. -/
def scan (base : Nat) : Nat → Text → Except Fault Nat
  | n, [] => .ok n
  | n, b :: t =>
    if b == '_' then scan base n t
    else match Text.hexValue? b with
      | none => .error .malformed
      | some d =>
        if base ≤ d then .error .malformed
        else if 2 ^ 64 ≤ n * base + d then .error .outOfRange
        else scan base (n * base + d) t

/-- Does every underscore of a numeral without a sign follow a digit or the mark of the base, and
    precede a digit? -/
def underscoresSeparate (t : Text) : Bool :=
  match t with
  | 0x30 :: mark :: digits =>
    let letter := Text.toLower mark
    if letter == 'x' || letter == 'o' || letter == 'b' then
      Numeral.underscoresSeparate (letter == 'x') .digit digits
    else Numeral.underscoresSeparate false .start t
  | t => Numeral.underscoresSeparate false .start t

/-- The value of a numeral without a sign. -/
def magnitude (t : Text) : Except Fault Nat := do
  if t.isEmpty then throw .malformed
  let (base, digits) := base t
  let n ← scan base 0 digits
  if t.contains '_' && !underscoresSeparate t then throw .malformed
  return n

/-- The integer of 64 bits that a whole text is. -/
def ofText (t : Text) : Except Fault Int := do
  let (negative, body) := Numeral.sign t
  let n ← magnitude body
  let value : Int := if negative then -n else n
  if Text.fitsBits 64 value then return value else throw .outOfRange

end Integer

end DatapackDebug
