import DatapackDebug.Text.Basic

namespace DatapackDebug

/-!
# Binary floating point numbers

The numbers of commands are doubles and singles.  A number is kept exactly, as a signed mantissa
times a power of two, and a format says which of those numbers it has.

* `Binary.ofRatio?` — the number of a format nearest to a quotient, ties to the even mantissa;
* `Binary.bits` — the interchange encoding;
* `Binary.lt`, `Binary.truncate`, `Binary.roundTimes` — order and the ways to an integer.

Only finite numbers occur: a quotient too large for the format has no nearest number.
-/

/-- The number `mantissa · 2 ^ exponent`, negated if `negative`; zero keeps its sign. -/
structure Binary where
  negative : Bool
  mantissa : Nat
  exponent : Int
deriving DecidableEq, Repr, Inhabited

/-- A binary interchange format. -/
structure FloatFormat where
  /-- the number of significant bits, the leading one included -/
  precision : Nat
  /-- the number of bits of the exponent field -/
  exponentBits : Nat

namespace FloatFormat

/-- Double precision. -/
def double : FloatFormat := ⟨53, 11⟩

/-- Single precision. -/
def single : FloatFormat := ⟨24, 8⟩

/-- The exponent field that stands for the exponent zero of the leading bit. -/
def bias (f : FloatFormat) : Int := Int.pow 2 (f.exponentBits - 1) - 1

/-- The exponent of the last bit of the smallest numbers. -/
def minExponent (f : FloatFormat) : Int := 2 - f.bias - f.precision

/-- The exponent of the last bit of the largest numbers. -/
def maxExponent (f : FloatFormat) : Int := f.bias + 1 - f.precision

end FloatFormat

namespace Binary

/-- Zero. -/
def zero : Binary := ⟨false, 0, FloatFormat.double.minExponent⟩

/-- The integer `n`. -/
def ofInt (n : Int) : Binary := ⟨n < 0, n.natAbs, 0⟩

/-- `2 ^ e` as a natural number, or one if `e` is negative. -/
def powPos (e : Int) : Nat := Nat.pow 2 e.toNat

/-- The quotient rounded to the nearest integer, a half to the even one. -/
def roundHalfEven (num den : Nat) : Nat :=
  let q := num / den
  let twice := 2 * (num % den)
  if twice < den then q
  else if den < twice then q + 1
  else q + q % 2

/-- The exponent of the last bit of the number of the format that is nearest to `num / den`, before
    rounding. -/
def lastExponent (f : FloatFormat) (num den : Nat) : Int :=
  let e : Int := (num.log2 : Int) - den.log2 - f.precision
  let fits := num * powPos (-e) / (den * powPos e) < Nat.pow 2 f.precision
  max (if fits then e else e + 1) f.minExponent

/-- The number of the format nearest to `±num / den`, if it is not too large. -/
def ofRatio? (f : FloatFormat) (negative : Bool) (num den : Nat) : Option Binary :=
  if num == 0 then some ⟨negative, 0, f.minExponent⟩
  else
    let e := lastExponent f num den
    let m := roundHalfEven (num * powPos (-e)) (den * powPos e)
    let (m, e) := if m < Nat.pow 2 f.precision then (m, e) else (m / 2, e + 1)
    if f.maxExponent < e then none else some ⟨negative, m, e⟩

/-- The number of the format nearest to `x`, if it is not too large. -/
def round? (f : FloatFormat) (x : Binary) : Option Binary :=
  ofRatio? f x.negative (x.mantissa * powPos x.exponent) (powPos (-x.exponent))

/-- The same number as a double; singles are doubles. -/
def toDouble (x : Binary) : Binary := (round? .double x).getD x

/-- The double nearest to an integer. -/
def ofIntDouble (n : Int) : Binary := (round? .double (ofInt n)).getD zero

/-- The interchange encoding of a number of the format, as an unsigned integer. -/
def bits (f : FloatFormat) (x : Binary) : Nat :=
  let lead := Nat.pow 2 (f.precision - 1)
  let sign := if x.negative then Nat.pow 2 (f.precision - 1 + f.exponentBits) else 0
  if x.mantissa < lead then sign + x.mantissa
  else sign + (x.exponent - f.minExponent + 1).toNat * lead + (x.mantissa - lead)

/-- The number as an integer multiple of `2 ^ e`, for an `e` at or below its exponent. -/
def scaled (x : Binary) (e : Int) : Int :=
  let n : Int := x.mantissa * powPos (x.exponent - e)
  if x.negative then -n else n

/-- Is `x` smaller than `y`?  The two zeros are equal. -/
def lt (x y : Binary) : Bool :=
  let e := min x.exponent y.exponent
  x.scaled e < y.scaled e

/-- Are the numbers equal?  The two zeros are. -/
def eq (x y : Binary) : Bool := !lt x y && !lt y x

/-- Is the number zero, of either sign? -/
def isZero (x : Binary) : Bool := x.mantissa == 0

/-- The integer part. -/
def truncate (x : Binary) : Int :=
  let n : Int := (x.mantissa * powPos x.exponent / powPos (-x.exponent) : Nat)
  if x.negative then -n else n

/-- The integer nearest to `x · factor`, a half away from zero. -/
def roundTimes (x : Binary) (factor : Nat) : Int :=
  let den := powPos (-x.exponent)
  let num := x.mantissa * factor * powPos x.exponent
  let n : Int := ((2 * num + den) / (2 * den) : Nat)
  if x.negative then -n else n

/-- A 64-bit word that receives an integer: out of range integers all become the least one. -/
def toWord (n : Int) : Int := if Text.fitsBits 64 n then n else -Int.pow 2 63

end Binary

end DatapackDebug
