import DatapackDebug.Number.Literal
import DatapackDebug.Text.Quoted

namespace DatapackDebug

/-!
# Durations

A duration is written as numbers with units, such as `1h2m3.5s`.

* `Duration.parse` — the number of nanoseconds, if it fits in a 64-bit word.
-/

namespace Duration

/-- Why a text is not a duration. -/
inductive Error where
  | malformed (t : Text)
  | noUnit (t : Text)
  | unknownUnit (unit t : Text)
deriving DecidableEq, Repr

/-- The wording of the error. -/
def Error.message : Error → Text
  | .malformed t => "time: invalid duration " ++ Text.quoted t
  | .noUnit t => "time: missing unit in duration " ++ Text.quoted t
  | .unknownUnit unit t =>
    "time: unknown unit " ++ Text.quoted unit ++ " in duration " ++ Text.quoted t

/-- The nanoseconds of the units. -/
def units : List (Text × Nat) :=
  [("ns", 1), ("us", 1000), ("µs", 1000), ("μs", 1000), ("ms", 1000000), ("s", 1000000000),
    ("m", 60000000000), ("h", 3600000000000)]

/-- The greatest absolute value. -/
def limit : Nat := Nat.pow 2 63

/-- The value of digits before a point, if it stays within the limit. -/
def whole? (digits : Text) : Option Nat :=
  let n := Text.digitsValue digits
  if n > limit then none else some n

/-- Digits after a point as a number and the power of ten that divides it.  Digits that would take
    the number beyond the limit are dropped. -/
def fraction : Nat → Nat → Text → Nat × Nat
  | n, scale, [] => (n, scale)
  | n, scale, d :: ds =>
    let next := n * 10 + (d.toNat - 0x30)
    if n > (limit - 1) / 10 || next > limit then (n, scale) else fraction next (scale * 10) ds

/-- The nanoseconds of a fraction of a unit, computed with doubles. -/
def fractionOf (n scale unit : Nat) : Nat :=
  match Binary.ofRatio? .double false unit scale with
  | none => 0
  | some step =>
    let n := Binary.ofIntDouble n
    let product : Binary := ⟨false, n.mantissa * step.mantissa, n.exponent + step.exponent⟩
    product.toDouble.truncate.toNat

/-- A byte of a number. -/
def isNumberByte (b : UInt8) : Bool := b == 0x2e || Text.isDigit b

/-- One number with its unit, in nanoseconds. -/
def part (all t : Text) : Except Error (Nat × Text) := do
  let malformed := Error.malformed all
  let before := t.takeWhile Text.isDigit
  let afterWhole := t.drop before.length
  let (after, rest) := match afterWhole with
    | 0x2e :: rest => (rest.takeWhile Text.isDigit, rest.dropWhile Text.isDigit)
    | rest => ([], rest)
  let some n := whole? before | .error malformed
  if before.isEmpty && after.isEmpty then .error malformed
  let unitName := rest.takeWhile fun b => !isNumberByte b
  if unitName.isEmpty then .error (.noUnit all)
  let some unit := units.lookup unitName | .error (.unknownUnit unitName all)
  if n > limit / unit then .error malformed
  let (f, scale) := fraction 0 1 after
  let total := n * unit + (if f > 0 then fractionOf f scale unit else 0)
  if total > limit then .error malformed
  return (total, rest.drop unitName.length)

/-- The sum of all numbers with their units. -/
def parts (all : Text) : Nat → Nat → Text → Except Error Nat
  | _, sum, [] => .ok sum
  | 0, _, _ => .error (.malformed all)
  | fuel + 1, sum, t => do
    let (n, rest) ← part all t
    if sum + n > limit then .error (.malformed all) else parts all fuel (sum + n) rest

/-- The nanoseconds of a duration. -/
def parse (t : Text) : Except Error Int := do
  let (negative, body) := match t with
    | 0x2d :: rest => (true, rest)
    | 0x2b :: rest => (false, rest)
    | rest => (false, rest)
  if body == "0" then return 0
  if body.isEmpty then .error (.malformed t)
  let n ← parts t body.length 0 body
  if negative then return -(n : Int)
  else if n ≥ limit then .error (.malformed t)
  else return n

end Duration

end DatapackDebug
