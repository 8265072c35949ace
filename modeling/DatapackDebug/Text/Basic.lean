namespace DatapackDebug

/-!
# Text as bytes

Commands, logs and files are byte sequences: every position, length and column of the debugger
counts bytes, and nothing guarantees that a file is valid UTF-8.  So text is a list of bytes, and a
string literal stands for its UTF-8 encoding.

* `Text.ofString` — the bytes of a string literal, also inserted as a coercion;
* `Text.ofNat`, `Text.ofInt` — decimal numerals;
* `cut?`, `cutLast?`, `splitOn`, `replaceAll` — splitting and replacing;
* `Text.compare` — the byte-wise order.
-/

/-- A sequence of bytes, usually but not necessarily valid UTF-8. -/
abbrev Text := List UInt8

/-- The UTF-8 bytes of a string. -/
def Text.ofString (s : String) : Text := s.toByteArray.data.toList

instance : Coe String Text := ⟨Text.ofString⟩

/-- An ASCII character stands for its byte. -/
instance instCoeCharByte : Coe Char UInt8 := ⟨Char.toUInt8⟩

namespace Text

/-- The blank between the arguments of a command. -/
def blank : UInt8 := 0x20

/-- Is the byte one of `0` to `9`? -/
def isDigit (b : UInt8) : Bool := 0x30 ≤ b && b ≤ 0x39

/-- Is the byte one of `a` to `z`? -/
def isLower (b : UInt8) : Bool := 0x61 ≤ b && b ≤ 0x7a

/-- Is the byte one of `A` to `Z`? -/
def isUpper (b : UInt8) : Bool := 0x41 ≤ b && b ≤ 0x5a

/-- The value of a hexadecimal digit of either case. -/
def hexValue? (b : UInt8) : Option Nat :=
  if isDigit b then some (b.toNat - 0x30)
  else if 0x61 ≤ b && b ≤ 0x66 then some (b.toNat - 0x61 + 10)
  else if 0x41 ≤ b && b ≤ 0x46 then some (b.toNat - 0x41 + 10)
  else none

/-- Is the byte a hexadecimal digit of either case? -/
def isHex (b : UInt8) : Bool := (hexValue? b).isSome

/-- The lower case form of an ASCII letter; other bytes are unchanged. -/
def toLower (b : UInt8) : UInt8 := if isUpper b then b + 0x20 else b

/-- The digit of a value below sixteen, in lower case. -/
def hexDigit (n : Nat) : UInt8 :=
  if n < 10 then UInt8.ofNat (0x30 + n) else UInt8.ofNat (0x61 + n - 10)

/-- The decimal numeral of a natural number. -/
def ofNat (n : Nat) : Text := (Nat.toDigits 10 n).map Char.toUInt8

/-- The decimal numeral of an integer, with `-` in front of a negative one. -/
def ofInt : Int → Text
  | .ofNat n => ofNat n
  | .negSucc n => 0x2d :: ofNat (n + 1)

/-- The value of a sequence of decimal digits, most significant first. -/
def digitsValue (ds : Text) : Nat := ds.foldl (fun v d => v * 10 + (d.toNat - 0x30)) 0

/-- The value of a non-empty sequence of decimal digits. -/
def toNat? (t : Text) : Option Nat :=
  if t.isEmpty || !t.all isDigit then none else some (digitsValue t)

/-- The integer that an optionally signed sequence of decimal digits denotes. -/
def toInt? : Text → Option Int
  | 0x2d :: ds => (toNat? ds).map fun n => -(n : Int)
  | 0x2b :: ds => (toNat? ds).map fun n => (n : Int)
  | ds => (toNat? ds).map fun n => (n : Int)

/-- The integers of a two's complement word of the given width. -/
def fitsBits (bits : Nat) (v : Int) : Bool :=
  -Int.pow 2 (bits - 1) ≤ v && v < Int.pow 2 (bits - 1)

/-- The integer that a text denotes, if it fits in a signed word of the given width. -/
def toIntOfBits? (bits : Nat) (t : Text) : Option Int := (toInt? t).filter (fitsBits bits)

/-- What follows `p`, if the text starts with it. -/
def dropStart? : Text → Text → Option Text
  | [], t => some t
  | _ :: _, [] => none
  | a :: p, b :: t => if a == b then dropStart? p t else none

/-- Does the text start with `p`? -/
def startsWith (t p : Text) : Bool := p.isPrefixOf t

/-- Does the text end with `p`? -/
def endsWith (t p : Text) : Bool := p.isSuffixOf t

/-- What precedes `p`, if the text ends with it. -/
def dropEnd? (p t : Text) : Option Text :=
  (dropStart? p.reverse t.reverse).map List.reverse

/-- Does `p` occur somewhere in the text? -/
def occursIn (p : Text) : Text → Bool
  | [] => p.isEmpty
  | b :: t => p.isPrefixOf (b :: t) || occursIn p t

/-- The parts before and after the first byte `sep`. -/
def cut? (sep : UInt8) : Text → Option (Text × Text)
  | [] => none
  | b :: t => if b == sep then some ([], t) else (cut? sep t).map fun (l, r) => (b :: l, r)

/-- The parts before and after the last byte `sep`. -/
def cutLast? (sep : UInt8) (t : Text) : Option (Text × Text) :=
  (cut? sep t.reverse).map fun (r, l) => (l.reverse, r.reverse)

/-- The parts between the bytes `sep`; there is one more part than separators. -/
def splitOn (sep : UInt8) : Text → List Text
  | [] => [[]]
  | b :: t =>
    if b == sep then [] :: splitOn sep t
    else match splitOn sep t with
      | [] => [[b]]
      | part :: parts => (b :: part) :: parts

/-- The texts one after the other with `sep` between them. -/
def join (sep : Text) (parts : List Text) : Text := (parts.intersperse sep).flatten

/-- Every occurrence of the non-empty text `old`, from the left, becomes `new`. -/
def replaceAll (old new : Text) (t : Text) : Text :=
  go t.length t
where
  go : Nat → Text → Text
    | 0, t => t
    | _ + 1, [] => []
    | n + 1, b :: t =>
      match dropStart? old (b :: t) with
      | some rest => new ++ go n rest
      | none => b :: go n t

/-- The first key that the text starts with, as its replacement and what follows. -/
def substituteOne? (pairs : List (Text × Text)) (t : Text) : Option (Text × Text) :=
  pairs.findSome? fun (key, new) => (dropStart? key t).map fun rest => (new, rest)

/-- The non-empty keys of some pairs, from the left, become their replacements, which are not looked
    at again. -/
def substitute (pairs : List (Text × Text)) (t : Text) : Text :=
  go t.length t
where
  go : Nat → Text → Text
    | 0, t => t
    | _ + 1, [] => []
    | n + 1, b :: t =>
      match substituteOne? pairs (b :: t) with
      | some (new, rest) => new ++ go n rest
      | none => b :: go n t

/-- Every byte `old` becomes `new`. -/
def replaceByte (old new : UInt8) (t : Text) : Text := t.map fun b => if b == old then new else b

/-- The byte-wise order, in which a proper beginning comes first. -/
def compare : Text → Text → Ordering
  | [], [] => .eq
  | [], _ :: _ => .lt
  | _ :: _, [] => .gt
  | a :: s, b :: t => if a < b then .lt else if b < a then .gt else compare s t

/-- Is `s` at or before `t` in the byte-wise order? -/
def le (s t : Text) : Bool := compare s t != .gt

/-- The texts sorted, each once. -/
def sortDedup (ts : List Text) : List Text :=
  (ts.mergeSort le).foldr (fun t rest => if rest.head? == some t then rest else t :: rest) []

end Text

end DatapackDebug
