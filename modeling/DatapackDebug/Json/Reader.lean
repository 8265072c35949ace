import DatapackDebug.Json.Basic

namespace DatapackDebug

/-!
# Reading JSON

One value from the front of a text, with what follows it.  Strings may hold any bytes from `20` on;
what is not valid UTF-8 is replaced, as are escaped surrogates without a partner.

* `Json.read` — one value and the rest;
* `Json.parse` — a text that is one value.
-/

namespace Json

/-- White space between the tokens of a document. -/
def isSpace (b : UInt8) : Bool := b == ' ' || b == '\t' || b == '\r' || b == '\n'

/-- The text from its first byte that is no white space on. -/
def skipSpace (t : Text) : Text := t.dropWhile isSpace

/-! ### Strings -/

/-- A byte of a string, or a code unit given by an escape. -/
inductive StringUnit where
  | byte (b : UInt8)
  | code (n : Nat)
deriving DecidableEq

/-- The byte that a one-letter escape stands for. -/
def escape? (b : UInt8) : Option UInt8 :=
  if b == '"' || b == '\\' || b == '/' then some b
  else if b == 'b' then some 0x08
  else if b == 'f' then some 0x0c
  else if b == 'n' then some 0x0a
  else if b == 'r' then some 0x0d
  else if b == 't' then some 0x09
  else none

/-- The error of an escape with less than four hexadecimal digits, of which `t` is what follows the
    letter.  A document that ends within the digits is not at fault otherwise. -/
def hexError (t : Text) : SyntaxError :=
  if t.length < 4 && t.all Text.isHex then .ended else .badEscape ("\\u" ++ t.take 4)

/-- The value of four hexadecimal digits. -/
def hexCode? (a b c d : UInt8) : Option Nat := do
  let a ← Text.hexValue? a
  let b ← Text.hexValue? b
  let c ← Text.hexValue? c
  let d ← Text.hexValue? d
  return ((a * 16 + b) * 16 + c) * 16 + d

/-- The units of a string up to its closing quote, and what follows. -/
def readUnits : Text → Except SyntaxError (List StringUnit × Text)
  | [] => .error .ended
  | b :: t =>
    if b == '"' then .ok ([], t)
    else if b == '\\' then
      match t with
      | [] => .error .ended
      | c :: t =>
        if c == 'u' then
          match t with
          | d₁ :: d₂ :: d₃ :: d₄ :: t =>
            match hexCode? d₁ d₂ d₃ d₄ with
            | none => .error (hexError [d₁, d₂, d₃, d₄])
            | some n => (readUnits t).map fun (us, rest) => (.code n :: us, rest)
          | t => .error (hexError t)
        else match escape? c with
          | none => .error (.badEscape [b, c])
          | some e => (readUnits t).map fun (us, rest) => (.byte e :: us, rest)
    else if b < 0x20 then .error (.unexpected (.char b.toNat) .inString)
    else (readUnits t).map fun (us, rest) => (.byte b :: us, rest)

/-- The code point of a pair of surrogates. -/
def surrogatePair? (high low : Nat) : Option Nat :=
  if 0xd800 ≤ high && high < 0xdc00 && 0xdc00 ≤ low && low < 0xe000 then
    some ((high - 0xd800) * 0x400 + (low - 0xdc00) + 0x10000)
  else none

/-- The bytes of the units, with pairs of surrogates joined. -/
def unitsText : List StringUnit → Text
  | [] => []
  | .byte b :: us => b :: unitsText us
  | .code high :: .code low :: us =>
    match surrogatePair? high low with
    | some n => Utf8.encode n ++ unitsText us
    | none => Utf8.encode high ++ unitsText (.code low :: us)
  | .code n :: us => Utf8.encode n ++ unitsText us

/-- The string behind its opening quote. -/
def readString (t : Text) : Except SyntaxError (Text × Text) :=
  (readUnits t).map fun (us, rest) => (Utf8.repair (unitsText us), rest)

/-! ### Numbers and words -/

/-- The digits in front of a text, of which there must be one. -/
def readDigits (t : Text) : Except SyntaxError (Text × Text) :=
  if t.head?.any Text.isDigit then .ok (t.takeWhile Text.isDigit, t.dropWhile Text.isDigit)
  else .error (.at .inNumeral t)

/-- The digits of the integer part: a zero stands alone. -/
def readInteger (t : Text) : Except SyntaxError (Text × Text) :=
  match t with
  | 0x30 :: rest => .ok ([0x30], rest)
  | t => readDigits t

/-- The point and the digits behind it, if there is a point. -/
def readFraction (t : Text) : Except SyntaxError (Text × Text) :=
  match t with
  | 0x2e :: rest => (readDigits rest).map fun (ds, rest) => (0x2e :: ds, rest)
  | t => .ok ([], t)

/-- The exponent with its mark, if there is a mark. -/
def readExponent (t : Text) : Except SyntaxError (Text × Text) :=
  match t with
  | [] => .ok ([], [])
  | e :: rest =>
    if Text.toLower e == 'e' then
      match rest with
      | [] => .error .ended
      | s :: rest' =>
        if s == '+' || s == '-' then
          (readDigits rest').map fun (ds, rest) => (e :: s :: ds, rest)
        else (readDigits rest).map fun (ds, rest) => (e :: ds, rest)
    else .ok ([], t)

/-- The longest numeral in front of a text. -/
def readNumeral (t : Text) : Except SyntaxError (Text × Text) := do
  let (minus, t) : Text × Text := match t with
    | 0x2d :: rest => ([0x2d], rest)
    | t => ([], t)
  let (int, t) ← readInteger t
  let (fraction, t) ← readFraction t
  let (exponent, t) ← readExponent t
  return (minus ++ int ++ fraction ++ exponent, t)

/-- What follows the rest of a word whose first byte was seen. -/
def readWord (word : Text) : Text → Text → Except SyntaxError Text
  | [], t => .ok t
  | _ :: _, [] => .error .ended
  | e :: es, b :: t =>
    if e == b then readWord word es t else .error (.at (.inWord word e) (b :: t))

/-! ### Values -/

/-- The reader of one value with the values nested in it. -/
abbrev ValueReader := Text → Except SyntaxError (Json × Text)

/-- Items between commas up to the byte `close`, where `context` tells what was expected when
    another byte follows an item. -/
def readSequence {α : Type} (item : Text → Except SyntaxError (α × Text)) (close : UInt8)
    (context : ErrorContext) : Nat → Text → Except SyntaxError (List α × Text)
  | 0, _ => .error .ended
  | n + 1, t => do
    let (first, t) ← item t
    match skipSpace t with
    | [] => .error .ended
    | b :: t =>
      if b == ',' then
        let (others, t) ← readSequence item close context n t
        return (first :: others, t)
      else if b == close then return ([first], t)
      else .error (.at context (b :: t))

/-- The items of an array up to its closing bracket. -/
def readItems (value : ValueReader) : Nat → Text → Except SyntaxError (List Json × Text) :=
  readSequence value ']' .afterItem

/-- The name of a field and the colon behind it. -/
def readKey (t : Text) : Except SyntaxError (Text × Text) :=
  match skipSpace t with
  | [] => .error .ended
  | b :: t =>
    if b == '"' then do
      let (key, t) ← readString t
      match skipSpace t with
      | [] => .error .ended
      | b :: t => if b == ':' then return (key, t) else .error (.at .afterKey (b :: t))
    else .error (.at .key (b :: t))

/-- A field with its name. -/
def readField (value : ValueReader) (t : Text) : Except SyntaxError ((Text × Json) × Text) := do
  let (key, t) ← readKey t
  let (v, t) ← value t
  return ((key, v), t)

/-- The fields of an object up to its closing brace. -/
def readFields (value : ValueReader) :
    Nat → Text → Except SyntaxError (List (Text × Json) × Text) :=
  readSequence (readField value) '\x7d' .afterField

/-- One value in which arrays and objects are nested at most `depth` deep. -/
def readValue : Nat → ValueReader
  | depth, t =>
    match skipSpace t with
    | [] => .error .ended
    | b :: rest =>
      if b == '\x7b' then
        match depth with
        | 0 => .error .tooDeep
        | depth + 1 =>
          match skipSpace rest with
          | 0x7d :: t => .ok (.object [], t)
          | _ => (readFields (readValue depth) rest.length rest).map fun (fs, t) => (.object fs, t)
      else if b == '[' then
        match depth with
        | 0 => .error .tooDeep
        | depth + 1 =>
          match skipSpace rest with
          | 0x5d :: t => .ok (.array [], t)
          | _ => (readItems (readValue depth) rest.length rest).map fun (xs, t) => (.array xs, t)
      else if b == '"' then (readString rest).map fun (s, t) => (.string s, t)
      else if b == '-' || Text.isDigit b then
        (readNumeral (b :: rest)).map fun (n, t) => (.number n, t)
      else if b == 't' then (readWord "true" "rue" rest).map fun t => (.bool true, t)
      else if b == 'f' then (readWord "false" "alse" rest).map fun t => (.bool false, t)
      else if b == 'n' then (readWord "null" "ull" rest).map fun t => (.null, t)
      else .error (.at .value (b :: rest))

/-- How deeply arrays and objects may be nested. -/
def maxDepth : Nat := 10000

/-- The value in front of a text, and what follows it. -/
def read : ValueReader := readValue maxDepth

/-- The value that a whole text is, white space around it aside. -/
def parse (t : Text) : Except SyntaxError Json := do
  let (v, rest) ← read t
  match skipSpace rest with
  | [] => return v
  | rest => .error (.at .afterDocument rest)

end Json

end DatapackDebug
