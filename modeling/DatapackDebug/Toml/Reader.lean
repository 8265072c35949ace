import DatapackDebug.Toml.Scalar

namespace DatapackDebug.Toml

/-!
# Reading TOML documents

A document is a sequence of statements, one a line: table headers and assignments.

* `readKey` — the names of a key, with points between them;
* `readValue` — strings, numbers, truth values, arrays and inline tables;
* `statements` — the statements of a document.
-/

/-- A reader of something at the front of a text. -/
abbrev Read (α : Type) := StateT Text (Except Error) α

namespace Read

/-- Fail where the text now stands. -/
def fail {α : Type} : Read α := fun t => .error (.malformed t)

/-- The text that is left. -/
def rest : Read Text := get

/-- The next byte, left where it is. -/
def peek? : Read (Option UInt8) := return (← get).head?

/-- Skip bytes with a property. -/
def skipWhile (p : UInt8 → Bool) : Read Unit := modify (·.dropWhile p)

/-- Skip blanks within a line. -/
def skipBlanks : Read Unit := skipWhile isBlank

/-- Take a text, if it is next. -/
def accept (what : Text) : Read Bool := fun t =>
  match Text.dropStart? what t with
  | some rest => .ok (true, rest)
  | none => .ok (false, t)

/-- Take a text, which must be next. -/
def require (what : Text) : Read Unit := do
  unless ← accept what do fail

/-- Take something that a partial function finds at the front. -/
def take {α : Type} (f : Text → Option (α × Text)) : Read α := fun t =>
  match f t with
  | some (a, rest) => .ok (a, rest)
  | none => .error (.malformed t)

/-- Skip a comment, up to the end of its line. -/
def skipComment : Read Unit := do
  if (← peek?) == some 0x23 then skipWhile (!isBreak ·)

/-- Skip blanks, line breaks and comments. -/
def skipLines : Nat → Read Unit
  | 0 => return ()
  | fuel + 1 => do
    skipWhile fun b => isBlank b || isBreak b
    if (← peek?) == some 0x23 then
      skipComment
      skipLines fuel

/-- Skip blanks, line breaks and comments. -/
def skipAll : Read Unit := do skipLines (← rest).length

end Read

open Read

/-! ### Keys -/

/-- The bytes of names without quotes. -/
def isNameByte (b : UInt8) : Bool :=
  Text.isLower b || Text.isUpper b || Text.isDigit b || b == 0x5f || b == 0x2d

/-- One name of a key. -/
def readName : Read Text := do
  let t ← rest
  match t.head? with
  | some 0x22 | some 0x27 => take string?
  | _ =>
    let name := t.takeWhile isNameByte
    if name.isEmpty then fail
    set (t.drop name.length)
    return name

/-- The names of a key. -/
def readNames : Nat → Read Key
  | 0 => fail
  | fuel + 1 => do
    skipBlanks
    let name ← readName
    skipBlanks
    if ← accept "." then return name :: (← readNames fuel) else return [name]

/-- A key. -/
def readKey : Read Key := do readNames ((← rest).length + 1)

/-! ### Values -/

/-- A string of any kind. -/
def readString (t : Text) : Option (Text × Text) :=
  match t with
  | 0x22 :: 0x22 :: 0x22 :: t => multilineString t
  | 0x27 :: 0x27 :: 0x27 :: t => multilineRaw t
  | t => string? t

/-- A value that is neither an array nor a table. -/
def scalar? (t : Text) : Option (Toml × Text) :=
  match t.head? with
  | some 0x22 | some 0x27 => (readString t).map fun (s, rest) => (.string s, rest)
  | _ =>
    ((Text.dropStart? "true" t).map fun rest => (.bool true, rest)).or <|
      ((Text.dropStart? "false" t).map fun rest => (.bool false, rest)).or (number? t)

/-- The items of an array, after its bracket. -/
def readItems (value : Read Expr) : Nat → Read (List Expr)
  | 0 => fail
  | fuel + 1 => do
    skipAll
    if ← accept "]" then return []
    let v ← value
    skipAll
    if ← accept "," then return v :: (← readItems value fuel)
    require "]"
    return [v]

/-- The pairs of an inline table, after its brace; there is at least one. -/
def readPairs (value : Read Expr) : Nat → Read (List (Key × Expr))
  | 0 => fail
  | fuel + 1 => do
    let key ← readKey
    require "="
    skipBlanks
    let v ← value
    skipBlanks
    if ← accept "," then return (key, v) :: (← readPairs value fuel)
    require "\x7d"
    return [(key, v)]

/-- A value, nested at most `depth` deep. -/
def readValue : Nat → Read Expr
  | 0 => fail
  | depth + 1 => do
    if ← accept "[" then return .array (← readItems (readValue depth) ((← rest).length + 1))
    else if ← accept "\x7b" then
      skipBlanks
      if ← accept "\x7d" then return .inline []
      else return .inline (← readPairs (readValue depth) ((← rest).length + 1))
    else return .scalar (← take scalar?)

/-! ### Statements -/

/-- The end of a statement: a comment, and the end of the line or of the document. -/
def readEnd : Read Unit := do
  skipBlanks
  skipComment
  match ← peek? with
  | none => return ()
  | some b => unless isBreak b do fail

/-- One statement. -/
def readStatement : Read Statement := do
  if ← accept "[[" then
    let key ← readKey
    require "]]"
    readEnd
    return .tableItem key
  else if ← accept "[" then
    let key ← readKey
    require "]"
    readEnd
    return .table key
  else
    let key ← readKey
    require "="
    skipBlanks
    let v ← readValue ((← rest).length + 1)
    readEnd
    return .assign key v

/-- All statements. -/
def readStatements : Nat → Read (List Statement)
  | 0 => return []
  | fuel + 1 => do
    skipAll
    if (← rest).isEmpty then return []
    let s ← readStatement
    return s :: (← readStatements fuel)

/-- The text without a byte order mark. -/
def dropMark (t : Text) : Text :=
  ((Text.dropStart? [0xff, 0xfe] t).or
    ((Text.dropStart? [0xfe, 0xff] t).or (Text.dropStart? [0xef, 0xbb, 0xbf] t))).getD t

/-- Are there no control characters, but for tabs and line breaks? -/
def isPlain : Text → Bool
  | [] => true
  | 0x0d :: t => t.head? == some 0x0a && isPlain t
  | b :: t => (b ≥ 0x20 || b == 0x09 || b == 0x0a) && b != 0x7f && isPlain t

/-- The statements of a document. -/
def statements (t : Text) : Except Error (List Statement) :=
  let t := dropMark t
  if !Utf8.isValid t || !isPlain t then .error .encoding
  else ((readStatements (t.length + 1)).run t).map (·.1)

end DatapackDebug.Toml
