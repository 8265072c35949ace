import DatapackDebug.Text.Basic

namespace DatapackDebug

/-!
# UTF-8

Reading a text character by character, with every byte that belongs to no character standing for
itself, and writing code points.

* `Utf8.decode?` — the first character of a text, refusing overlong forms, surrogates and code
  points above `10FFFF`;
* `Utf8.pieces` — the whole text as characters and stray bytes;
* `Utf8.encode` — the bytes of a code point.
-/

namespace Utf8

/-- Is the byte one that continues a character? -/
def isContinuation (b : UInt8) : Bool := 0x80 ≤ b && b ≤ 0xbf

/-- The second bytes that may follow a leading byte, as an inclusive range. -/
def secondRange (lead : UInt8) : UInt8 × UInt8 :=
  if lead == 0xe0 then (0xa0, 0xbf)
  else if lead == 0xed then (0x80, 0x9f)
  else if lead == 0xf0 then (0x90, 0xbf)
  else if lead == 0xf4 then (0x80, 0x8f)
  else (0x80, 0xbf)

/-- May `second` follow the leading byte `lead`? -/
def isSecond (lead second : UInt8) : Bool :=
  (secondRange lead).1 ≤ second && second ≤ (secondRange lead).2

/-- The six payload bits of a continuation byte. -/
def payload (b : UInt8) : Nat := b.toNat % 0x40

/-- The first character of a text with what follows it, if the text starts with a character. -/
def decode? : Text → Option (Nat × Text)
  | [] => none
  | a :: t =>
    if a < 0x80 then some (a.toNat, t)
    else if 0xc2 ≤ a && a ≤ 0xdf then
      match t with
      | b :: t =>
        if isSecond a b then some (a.toNat % 0x20 * 0x40 + payload b, t) else none
      | _ => none
    else if 0xe0 ≤ a && a ≤ 0xef then
      match t with
      | b :: c :: t =>
        if isSecond a b && isContinuation c then
          some (a.toNat % 0x10 * 0x1000 + payload b * 0x40 + payload c, t)
        else none
      | _ => none
    else if 0xf0 ≤ a && a ≤ 0xf4 then
      match t with
      | b :: c :: d :: t =>
        if isSecond a b && isContinuation c && isContinuation d then
          some (a.toNat % 0x08 * 0x40000 + payload b * 0x1000 + payload c * 0x40 + payload d, t)
        else none
      | _ => none
    else none

/-- A character of a text, or a byte that is part of none. -/
inductive Piece where
  | char (code : Nat)
  | stray (byte : UInt8)
deriving DecidableEq, Repr

/-- The characters and stray bytes of a text in order. -/
def pieces (t : Text) : List Piece :=
  go t.length t
where
  go : Nat → Text → List Piece
    | 0, _ => []
    | _ + 1, [] => []
    | n + 1, b :: t =>
      match decode? (b :: t) with
      | some (code, rest) => .char code :: go n rest
      | none => .stray b :: go n t

/-- Is the whole text made of characters? -/
def isValid (t : Text) : Bool :=
  (pieces t).all fun
    | .char _ => true
    | .stray _ => false

/-- The character that stands for anything that cannot be decoded. -/
def replacement : Nat := 0xfffd

/-- Is the number a surrogate, or beyond the last code point? -/
def isScalar (code : Nat) : Bool := code < 0xd800 || (0xdfff < code && code ≤ 0x10ffff)

/-- The bytes of a code point; what is no code point is written as the replacement character. -/
def encode (code : Nat) : Text :=
  let code := if isScalar code then code else replacement
  if code < 0x80 then [UInt8.ofNat code]
  else if code < 0x800 then
    [UInt8.ofNat (0xc0 + code / 0x40), UInt8.ofNat (0x80 + code % 0x40)]
  else if code < 0x10000 then
    [UInt8.ofNat (0xe0 + code / 0x1000), UInt8.ofNat (0x80 + code / 0x40 % 0x40),
      UInt8.ofNat (0x80 + code % 0x40)]
  else
    [UInt8.ofNat (0xf0 + code / 0x40000), UInt8.ofNat (0x80 + code / 0x1000 % 0x40),
      UInt8.ofNat (0x80 + code / 0x40 % 0x40), UInt8.ofNat (0x80 + code % 0x40)]

/-- The bytes of a character or stray byte, with stray bytes replaced. -/
def Piece.repaired : Piece → Text
  | .char code => encode code
  | .stray _ => encode replacement

/-- The text with every stray byte replaced, so that the result is valid. -/
def repair (t : Text) : Text := (pieces t).flatMap Piece.repaired

/-- The character whose code is the value of a byte, as text. -/
def ofByte (b : UInt8) : Text := encode b.toNat

end Utf8

end DatapackDebug
