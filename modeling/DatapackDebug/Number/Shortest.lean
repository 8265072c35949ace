import DatapackDebug.Number.Binary

namespace DatapackDebug

/-!
# Shortest decimals

A double is shown by the fewest decimal digits that read back as it, and of those by the nearest.

* `Shortest.ofDouble` — the digits and their exponent;
* `Binary.general` — exponent form below `1e-04` and from `1e+06` on;
* `Binary.positional` — never an exponent.
-/

/-- The decimal `digits · 10 ^ exponent`. -/
structure Decimal where
  digits : Nat
  exponent : Int
deriving DecidableEq, Repr

namespace Shortest

/-- The reals that round to a positive double, as multiples of `2 ^ unit`. -/
structure Neighbourhood where
  low : Nat
  value : Nat
  high : Nat
  /-- do the two ends round to the double as well? -/
  closed : Bool
  unit : Int

/-- The neighbourhood of a positive double: half way to its two neighbours, the lower of which is
    nearer when the mantissa is the least of its exponent. -/
def neighbourhood (m : Nat) (e : Int) : Neighbourhood :=
  let f := FloatFormat.double
  let low := if m == Nat.pow 2 (f.precision - 1) && f.minExponent < e then 4 * m - 1 else 4 * m - 2
  ⟨low, 4 * m, 4 * m + 2, m % 2 == 0, e - 2⟩

/-- `10 ^ e` as a natural number, or one if `e` is negative. -/
def tenPos (e : Int) : Nat := Nat.pow 10 e.toNat

/-- Factors that make multiples of `2 ^ unit` and of `10 ^ q` comparable: the first for the former,
    the second for the latter. -/
def factors (unit q : Int) : Nat × Nat :=
  (Binary.powPos unit * tenPos (-q), Binary.powPos (-unit) * tenPos q)

/-- The power of ten just above a positive number: the least `k` from `start` on with
    `m · 2 ^ e < 10 ^ k`. -/
def magnitude (m : Nat) (e : Int) : Nat → Int → Int
  | 0, k => k
  | n + 1, k =>
    let (a, b) := factors e k
    if m * a < b then k else magnitude m e n (k + 1)

/-- A lower bound for the power of ten just above `m · 2 ^ e`. -/
def magnitudeBound (m : Nat) (e : Int) : Int := (((m.log2 : Int) + e) * 30103).fdiv 100000 - 1

/-- The decimal at the exponent `q` that is nearest to the number, if one reads back as it. -/
def candidate? (n : Neighbourhood) (q : Int) : Option Decimal :=
  let (a, b) := factors n.unit q
  let inside (d : Nat) : Bool :=
    if n.closed then n.low * a ≤ d * b && d * b ≤ n.high * a
    else n.low * a < d * b && d * b < n.high * a
  let d := n.value * a / b
  let below := n.value * a - d * b
  let above := (d + 1) * b - n.value * a
  let down := below < above || (below == above && d % 2 == 0)
  if inside d && (down || !inside (d + 1)) then some ⟨d, q⟩
  else if inside (d + 1) then some ⟨d + 1, q⟩
  else none

/-- The fewest digits that read back as the positive double `m · 2 ^ e`. -/
def ofDouble (m : Nat) (e : Int) : Decimal :=
  let k := magnitude m e 4 (magnitudeBound m e)
  let n := neighbourhood m e
  ((List.range 17).findSome? fun i => candidate? n (k - 1 - (i : Nat))).getD ⟨m, 0⟩

/-- The decimal without trailing zeros. -/
def trimZeros : Nat → Decimal → Decimal
  | 0, d => d
  | n + 1, d => if d.digits % 10 == 0 then trimZeros n ⟨d.digits / 10, d.exponent + 1⟩ else d

/-- Digits with the point before the place of `exponent`. -/
def positional (digits : Text) (exponent : Int) : Text :=
  if 0 ≤ exponent then digits ++ List.replicate exponent.toNat 0x30
  else
    let places := (-exponent).toNat
    if places < digits.length then
      digits.take (digits.length - places) ++ "." ++ digits.drop (digits.length - places)
    else "0." ++ (List.replicate (places - digits.length) 0x30 ++ digits : Text)

/-- An exponent of at least two digits with its sign. -/
def exponentText (x : Int) : Text :=
  let n := Text.ofNat x.natAbs
  (if x < 0 then "-" else "+") ++ (if n.length < 2 then 0x30 :: n else n)

/-- One digit, the rest behind a point, and the exponent. -/
def scientific (digits : Text) (x : Int) : Text :=
  let rest := digits.drop 1
  digits.take 1 ++ (if rest.isEmpty then [] else 0x2e :: rest) ++ "e" ++ exponentText x

end Shortest

namespace Binary

/-- The shortest digits of a double that is not zero, and their exponent. -/
def shortest (x : Binary) : Text × Int :=
  let d := Shortest.trimZeros 17 (Shortest.ofDouble x.mantissa x.exponent)
  (Text.ofNat d.digits, d.exponent)

/-- The sign in front of a number. -/
def signText (x : Binary) : Text := if x.negative then "-" else []

/-- The shortest decimal of a double without an exponent. -/
def positional (x : Binary) : Text :=
  if x.isZero then x.signText ++ "0"
  else
    let (digits, exponent) := x.shortest
    x.signText ++ Shortest.positional digits exponent

/-- The shortest decimal of a double, with an exponent when the number is below `1e-04` or at least
    `1e+06`. -/
def general (x : Binary) : Text :=
  if x.isZero then x.signText ++ "0"
  else
    let (digits, exponent) := x.shortest
    let lead := exponent + digits.length - 1
    x.signText ++
      (if lead < -4 || 6 ≤ lead then Shortest.scientific digits lead
       else Shortest.positional digits exponent)

end Binary

end DatapackDebug
