import DatapackDebug.Number.Binary

namespace DatapackDebug

/-!
# Numerals of floating point numbers

A numeral is an optional sign, digits with at most one point, and an optional exponent.  With `0x`
in front the digits are hexadecimal and the exponent, a power of two marked by `p`, is required.
Single underscores may separate digits.

* `Numeral.ofText?` — reads a whole text;
* `Numeral.toBinary?` — the nearest number of a format;
* `Binary.ofText?` — both steps.
-/

/-- The number `mantissa · base ^ scale`, negated if `negative`, where the base is two or ten. -/
structure Numeral where
  negative : Bool
  mantissa : Nat
  binary : Bool
  scale : Int
deriving DecidableEq, Repr

namespace Numeral

/-- What the digits of a numeral come to so far. -/
structure Digits where
  value : Nat := 0
  /-- the number of digits behind the point -/
  places : Nat := 0
  point : Bool := false
  seen : Bool := false
deriving DecidableEq, Repr

/-- The value of a digit of a decimal or hexadecimal numeral. -/
def digit? (hex : Bool) (b : UInt8) : Option Nat :=
  if hex then Text.hexValue? b else if Text.isDigit b then some (b.toNat - 0x30) else none

/-- The digits in front of a text, up to the first byte that is no digit, underscore or first
    point. -/
def scanDigits (hex : Bool) : Digits → Text → Digits × Text
  | acc, [] => (acc, [])
  | acc, b :: t =>
    if b == '_' then scanDigits hex acc t
    else if b == '.' then
      if acc.point then (acc, b :: t) else scanDigits hex { acc with point := true } t
    else match digit? hex b with
      | none => (acc, b :: t)
      | some d =>
        let value := acc.value * (if hex then 16 else 10) + d
        let places := if acc.point then acc.places + 1 else acc.places
        scanDigits hex { value, places, point := acc.point, seen := true } t

/-- The value of the decimal digits in front of a text; beyond ten thousand further digits change
    nothing, since no format reaches that far. -/
def scanExponent : Nat → Text → Nat × Text
  | acc, [] => (acc, [])
  | acc, b :: t =>
    if b == '_' then scanExponent acc t
    else if Text.isDigit b then
      scanExponent (if acc < 10000 then acc * 10 + (b.toNat - 0x30) else acc) t
    else (acc, b :: t)

/-- The exponent behind its mark: an optional sign, then at least one digit. -/
def exponent? (t : Text) : Option (Int × Text) :=
  let (negative, t) := match t with
    | 0x2b :: t => (false, t)
    | 0x2d :: t => (true, t)
    | t => (false, t)
  if t.head?.any Text.isDigit then
    let (e, rest) := scanExponent 0 t
    some (if negative then -(e : Int) else e, rest)
  else none

/-- What the underscore rule remembers of the byte before. -/
inductive Before where
  | start | digit | underscore | other
deriving DecidableEq

/-- Every underscore stands between two digits. -/
def underscoresSeparate (hex : Bool) : Before → Text → Bool
  | before, [] => before != .underscore
  | before, b :: t =>
    if (digit? hex b).isSome then underscoresSeparate hex .digit t
    else if b == '_' then before == .digit && underscoresSeparate hex .underscore t
    else before != .underscore && underscoresSeparate hex .other t

/-- The sign of a text and what follows it. -/
def sign : Text → Bool × Text
  | 0x2b :: t => (false, t)
  | 0x2d :: t => (true, t)
  | t => (false, t)

/-- What follows the mark of a hexadecimal numeral, which something must follow. -/
def hexBody? : Text → Option Text
  | 0x30 :: x :: b :: t => if Text.toLower x == 'x' then some (b :: t) else none
  | _ => none

/-- The numeral that a whole text is. -/
def ofText? (t : Text) : Option Numeral :=
  let (negative, body) := sign t
  let hex := (hexBody? body).isSome
  let digits := (hexBody? body).getD body
  let (ds, rest) := scanDigits hex {} digits
  let mark : UInt8 := if hex then 'p' else 'e'
  let tail : Option Int := match rest with
    | [] => if hex then none else some 0
    | m :: t =>
      if Text.toLower m == mark then
        match exponent? t with
        | some (e, []) => some e
        | _ => none
      else none
  let separated := !t.contains '_' || underscoresSeparate hex
    (if hex then .digit else .start) digits
  match tail with
  | some e =>
    if ds.seen && separated then
      let places : Int := if hex then 4 * ds.places else ds.places
      some ⟨negative, ds.value, hex, e - places⟩
    else none
  | none => none

/-- The number of the format nearest to the numeral, if it is not too large. -/
def toBinary? (f : FloatFormat) (n : Numeral) : Option Binary :=
  let base := if n.binary then 2 else 10
  Binary.ofRatio? f n.negative (n.mantissa * Nat.pow base n.scale.toNat)
    (Nat.pow base (-n.scale).toNat)

end Numeral

/-- The number of the format nearest to the numeral that the text is, if it is not too large. -/
def Binary.ofText? (f : FloatFormat) (t : Text) : Option Binary :=
  (Numeral.ofText? t).bind (Numeral.toBinary? f)

end DatapackDebug
