import DatapackDebug.Number.Literal
import DatapackDebug.Text.Utf8
import DatapackDebug.Toml.Basic

namespace DatapackDebug.Toml

/-!
# Scalars of TOML documents

* `basicString`, `rawString`, `multilineString`, `multilineRaw` — the four kinds of strings, after
  their opening quotes;
* `number?` — integers, fractions and times;
* `isDatetime` — dates and times that exist.
-/

/-! ### Strings -/

/-- A byte of a line break. -/
def isBreak (b : UInt8) : Bool := b == 0x0a || b == 0x0d

/-- Blanks within a line. -/
def isBlank (b : UInt8) : Bool := b == 0x20 || b == 0x09

/-- The escapes of one letter. -/
def escape? (b : UInt8) : Option UInt8 :=
  ([(0x62, 0x08), (0x74, 0x09), (0x6e, 0x0a), (0x66, 0x0c), (0x72, 0x0d), (0x22, 0x22),
    (0x5c, 0x5c)] : List (UInt8 × UInt8)).lookup b

/-- The character of a code in hexadecimal digits. -/
def codeEscape? (digits : Text) : Option Text :=
  match digits.mapM Text.hexValue? with
  | none => none
  | some values =>
    let code := values.foldl (fun n v => 16 * n + v) 0
    if Utf8.isScalar code then some (Utf8.encode code) else none

/-- A string with its escapes replaced, up to a byte that ends it. -/
def basicString : Nat → Text → Option (Text × Text)
  | 0, _ => none
  | _ + 1, [] => none
  | fuel + 1, b :: t =>
    if isBreak b then none
    else if b == 0x22 then some ([], t)
    else if b != 0x5c then (basicString fuel t).map fun (s, rest) => (b :: s, rest)
    else match t with
      | [] => none
      | 0x75 :: t =>
        (codeEscape? (t.take 4)).bind fun c => if (t.take 4).length < 4 then none
          else (basicString fuel (t.drop 4)).map fun (s, rest) => (c ++ s, rest)
      | 0x55 :: t =>
        (codeEscape? (t.take 8)).bind fun c => if (t.take 8).length < 8 then none
          else (basicString fuel (t.drop 8)).map fun (s, rest) => (c ++ s, rest)
      | e :: t =>
        (escape? e).bind fun c => (basicString fuel t).map fun (s, rest) => (c :: s, rest)

/-- A string without escapes, up to the quote that ends it. -/
def rawString (t : Text) : Option (Text × Text) :=
  let s := t.takeWhile (· != 0x27)
  if s.any isBreak then none else (Text.dropStart? "'" (t.drop s.length)).map fun rest => (s, rest)

/-- The text before the quotes that end a string of several lines, and what follows them.  Up to two
    quotes can stand before those three.  `escapes` says whether a backslash protects the byte after
    it, and `before` is the text before, backwards. -/
def untilQuotes (quote : UInt8) (escapes : Bool) : Nat → Text → Text → Option (Text × Text)
  | 0, _, _ => none
  | _ + 1, _, [] => none
  | fuel + 1, before, b :: t =>
    if b == 0x5c && escapes then
      match t with
      | [] => none
      | c :: t => untilQuotes quote escapes fuel (c :: b :: before) t
    else if b != quote then untilQuotes quote escapes fuel (b :: before) t
    else
      let run := (b :: t).takeWhile (· == quote)
      let most := if escapes && before.head? == some 0x5c then 6 else 5
      if run.length < 3 then
        untilQuotes quote escapes fuel (run ++ before) ((b :: t).drop run.length)
      else if run.length > most then none
      else some (before.reverse ++ run.drop 3, (b :: t).drop run.length)

/-- The text without a line break at its start. -/
def dropFirstBreak : Text → Text
  | 0x0a :: t => t
  | 0x0d :: 0x0a :: t => t
  | t => t

/-- The text with each backslash at the end of a line removed, together with the blanks and line
    breaks after it. -/
def joinLines : Nat → Text → Text
  | 0, t => t
  | _ + 1, [] => []
  | fuel + 1, b :: t =>
    if b != 0x5c then b :: joinLines fuel t
    else match t with
      | 0x5c :: rest => b :: 0x5c :: joinLines fuel rest
      | _ =>
        let blanks := t.takeWhile fun c => isBlank c || isBreak c
        if blanks.contains 0x0a then joinLines fuel (t.drop blanks.length)
          else b :: joinLines fuel t

/-- A text with its escapes replaced. -/
def replaceEscapes : Nat → Text → Option Text
  | 0, _ => none
  | _ + 1, [] => some []
  | fuel + 1, b :: t =>
    if b != 0x5c then (replaceEscapes fuel t).map (b :: ·)
    else match t with
      | [] => none
      | 0x75 :: t =>
        (codeEscape? (t.take 4)).bind fun c => if (t.take 4).length < 4 then none
          else (replaceEscapes fuel (t.drop 4)).map (c ++ ·)
      | 0x55 :: t =>
        (codeEscape? (t.take 8)).bind fun c => if (t.take 8).length < 8 then none
          else (replaceEscapes fuel (t.drop 8)).map (c ++ ·)
      | e :: t => (escape? e).bind fun c => (replaceEscapes fuel t).map (c :: ·)

/-- A string of several lines. -/
def multilineString (t : Text) : Option (Text × Text) := do
  let (s, rest) ← untilQuotes 0x22 true (t.length + 1) [] t
  let s := dropFirstBreak s
  let s := joinLines s.length s
  some (← replaceEscapes (s.length + 1) s, rest)

/-- A string of several lines without escapes. -/
def multilineRaw (t : Text) : Option (Text × Text) :=
  (untilQuotes 0x27 false (t.length + 1) [] t).map fun (s, rest) => (dropFirstBreak s, rest)

/-- A string in one line, in quotes of either kind. -/
def string? (t : Text) : Option (Text × Text) :=
  match t with
  | 0x22 :: t => basicString (t.length + 1) t
  | 0x27 :: t => rawString t
  | _ => none

/-! ### Dates and times -/

/-- The number of days of a month. -/
def daysOfMonth (year month : Nat) : Nat :=
  if month == 2 then if (year % 4 == 0 && year % 100 != 0) || year % 400 == 0 then 29 else 28
  else if [4, 6, 9, 11].contains month then 30 else 31

/-- A number of a fixed count of digits. -/
def fixedNumber? (count : Nat) (t : Text) : Option (Nat × Text) := do
  let digits := t.take count
  if digits.length == count then some (← Text.toNat? digits, t.drop count) else none

/-- A date, and what follows it. -/
def date? (t : Text) : Option Text := do
  let (year, t) ← fixedNumber? 4 t
  let (month, t) ← fixedNumber? 2 (← Text.dropStart? "-" t)
  let (day, t) ← fixedNumber? 2 (← Text.dropStart? "-" t)
  if 1 ≤ month && month ≤ 12 && 1 ≤ day && day ≤ daysOfMonth year month then some t else none

/-- A fraction of a second, if there is one. -/
def skipFraction (t : Text) : Text :=
  match t with
  | 0x2e :: b :: rest => if Text.isDigit b then rest.dropWhile Text.isDigit else t
  | t => t

/-- A time of day, and what follows it. -/
def time? (t : Text) : Option Text := do
  let (hour, t) ← fixedNumber? 2 t
  let (minute, t) ← fixedNumber? 2 (← Text.dropStart? ":" t)
  let (second, t) ← fixedNumber? 2 (← Text.dropStart? ":" t)
  if hour < 24 && minute < 60 && second < 60 then some (skipFraction t) else none

/-- Is the text an offset from universal time? -/
def isOffset (t : Text) : Bool :=
  t == "Z" ||
    match t with
    | sign :: t =>
      (sign == 0x2b || sign == 0x2d) &&
        match fixedNumber? 2 t with
        | some (hour, 0x3a :: t) =>
          match fixedNumber? 2 t with
          | some (minute, []) => hour ≤ 24 && minute ≤ 60
          | _ => false
        | _ => false
    | [] => false

/-- Is the text a date, a time, or both, with or without an offset? -/
def isDatetime (t : Text) : Bool :=
  let t := t.map fun b => if b == 0x7a then 0x5a else if b == 0x74 || b == 0x20 then 0x54 else b
  match date? t with
  | some [] => true
  | some (0x54 :: t) =>
    match time? t with
    | some rest => rest.isEmpty || isOffset rest
    | none => false
  | some _ => false
  | none => time? t == some []

/-! ### Numbers -/

/-- Does each underscore stand between digits? -/
def underscoresOk (t : Text) : Bool := go false t
where
  go (afterDigit : Bool) : Text → Bool
    | [] => afterDigit
    | b :: t => (b != 0x5f || afterDigit) && go (Text.isHex b) t

/-- Does a number start with a zero that it does not need? -/
def hasLeadingZero (t : Text) : Bool :=
  match t with
  | 0x30 :: b :: _ => b != 0x62 && b != 0x6f && b != 0x78
  | sign :: 0x30 :: _ :: _ => sign == 0x2b || sign == 0x2d
  | _ => false

/-- The text without underscores. -/
def dropUnderscores (t : Text) : Text := t.filter (· != 0x5f)

/-- The value of digits of a base. -/
def basedValue (base : Nat) (digits : Text) : Nat :=
  digits.foldl (fun n b => base * n + (Text.hexValue? b).getD 0) 0

/-- The 64-bit integer of a numeral. -/
def integer? (t : Text) : Option Int :=
  if !underscoresOk t || hasLeadingZero t then none
  else
    let fits (n : Int) : Option Int := if Text.fitsBits 64 n then some n else none
    match dropUnderscores t with
    | 0x30 :: 0x78 :: digits => fits (basedValue 16 digits)
    | 0x30 :: 0x6f :: digits => fits (basedValue 8 digits)
    | 0x30 :: 0x62 :: digits => fits (basedValue 2 digits)
    | digits => Text.toIntOfBits? 64 digits

/-- The parts of a numeral around the bytes that `isSep` picks; empty parts are left out. -/
def fieldsBy (isSep : UInt8 → Bool) (t : Text) : List Text :=
  (t.foldr (fun b (parts : List Text) =>
    if isSep b then [] :: parts
    else match parts with
      | [] => [[b]]
      | part :: parts => (b :: part) :: parts) [[]]).filter (!·.isEmpty)

/-- Does a digit follow each point? -/
def pointsOk : Text → Bool
  | [] => true
  | 0x2e :: t => (t.head?.any Text.isDigit) && pointsOk t
  | _ :: t => pointsOk t

/-- Is the text a number with a fraction or an exponent, within the range of doubles? -/
def isFloat (t : Text) : Bool :=
  let parts := fieldsBy (fun b => b == 0x2e || b == 0x65 || b == 0x45) t
  parts.all underscoresOk && !(parts.head?.any hasLeadingZero) && pointsOk t &&
    (Binary.ofText? .double (dropUnderscores t)).isSome

/-- Bytes of integers. -/
def isDecimalByte (b : UInt8) : Bool := Text.isDigit b || b == 0x5f

/-- Bytes of numbers with a fraction or an exponent. -/
def isFloatByte (b : UInt8) : Bool :=
  isDecimalByte b || b == 0x2e || b == 0x2d || b == 0x2b || b == 0x65 || b == 0x45

/-- Bytes of dates and times. -/
def isDatetimeByte (b : UInt8) : Bool :=
  Text.isDigit b || ([0x2d, 0x3a, 0x54, 0x74, 0x20, 0x2e, 0x5a, 0x7a, 0x2b] : Text).contains b

/-- The text without blanks at its end. -/
def trimBlanks (t : Text) : Text := (t.reverse.dropWhile isBlank).reverse

/-- The digits of a base after its letter. -/
def based? (isDigit : UInt8 → Bool) (mark t : Text) : Option (Toml × Text) :=
  if !(t.head?.any isDigit) then none
  else
    let digits := t.takeWhile fun b => isDigit b || b == 0x5f
    (integer? (mark ++ digits)).map fun n => (.integer n, t.drop digits.length)

/-- A decimal number or a time, with its sign. -/
def decimal? (sign t : Text) : Option (Toml × Text) :=
  let digits := t.takeWhile isDecimalByte
  let next := (t.drop digits.length).head?
  if digits.isEmpty then none
  else if next == some 0x2e || next == some 0x65 || next == some 0x45 then
    let numeral := sign ++ t.takeWhile isFloatByte
    if isFloat numeral then some (.float numeral, t.dropWhile isFloatByte) else none
  else if sign.isEmpty && (next == some 0x2d || next == some 0x3a) then
    let time := trimBlanks (t.takeWhile isDatetimeByte)
    if isDatetime time then some (.datetime time, t.dropWhile isDatetimeByte) else none
  else (integer? (sign ++ digits)).map fun n => (.integer n, t.drop digits.length)

/-- One of the values that are no numbers proper. -/
def special? (sign t : Text) : Option (Toml × Text) :=
  ((Text.dropStart? "inf" t).or (Text.dropStart? "nan" t)).map fun rest =>
    (.float (sign ++ t.take 3), rest)

/-- A number or a time at the start of a text. -/
def number? (t : Text) : Option (Toml × Text) :=
  match t with
  | 0x30 :: 0x78 :: t => based? Text.isHex "0x" t
  | 0x30 :: 0x6f :: t => based? (fun b => 0x30 ≤ b && b ≤ 0x37) "0o" t
  | 0x30 :: 0x62 :: t => based? (fun b => b == 0x30 || b == 0x31) "0b" t
  | b :: t =>
    if b == 0x2b || b == 0x2d then
      (special? [b] t).or (if t.head?.any Text.isDigit then decimal? [b] t else none)
    else if Text.isDigit b then decimal? [] (b :: t)
    else special? [] (b :: t)
  | [] => none

end DatapackDebug.Toml
