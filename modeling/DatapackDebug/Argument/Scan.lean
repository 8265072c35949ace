import DatapackDebug.Argument.Failure

namespace DatapackDebug.Argument

/-!
# Reading from the front of a text

A scan takes a value off the front of a text and leaves the rest, or fails.

* `spanOf` — the longest beginning of bytes of a class;
* `quotedString`, `phrase` — strings with and without quotes;
* `separated`, `bracketed` — items between commas, up to a closing bracket.

The blanks that brackets allow are spaces only.
-/

/-- A reader of a value at the front of a text. -/
abbrev Scan (α : Type) := StateT Text (Except Failure) α

/-- Fail where the text now stands. -/
def fail {α : Type} (cause : Cause) : Scan α := fun rest => .error ⟨cause, rest⟩

/-- Fail at a place passed before, of which `rest` was left. -/
def failAt {α : Type} (rest : Text) (cause : Cause) : Scan α := fun _ => .error ⟨cause, rest⟩

/-- The longest beginning of bytes with property `p`. -/
def spanOf (p : UInt8 → Bool) : Scan Text := fun t => .ok (t.takeWhile p, t.dropWhile p)

/-- Skip spaces. -/
def skipBlanks : Scan Unit := fun t => .ok ((), t.dropWhile (· == Text.blank))

/-- The next byte, left where it is. -/
def peek? : Scan (Option UInt8) := fun t => .ok (t.head?, t)

/-- Take the byte `b` if it is next, and say whether it was. -/
def accept (b : UInt8) : Scan Bool := fun
  | [] => .ok (false, [])
  | c :: t => if c == b then .ok (true, t) else .ok (false, c :: t)

/-- Take the byte `b`, which must be next. -/
def require (b : UInt8) (cause : Cause) : Scan Unit := do
  if !(← accept b) then fail cause

/-- The text up to the next space. -/
def untilBlank : Scan Text := spanOf (· != Text.blank)

/-! ### Byte classes -/

/-- The bytes of words and strings without quotes. -/
def isWordByte (b : UInt8) : Bool :=
  Text.isDigit b || Text.isUpper b || Text.isLower b || b == '_' || b == '-' || b == '.' || b == '+'

/-- The bytes of numbers. -/
def isNumberByte (b : UInt8) : Bool := Text.isDigit b || b == '.' || b == '-'

/-- The bytes of resource locations. -/
def isResourceByte (b : UInt8) : Bool :=
  Text.isDigit b || Text.isLower b || b == '_' || b == '-' || b == '.' || b == '/' || b == ':'

/-- The bytes that open and close a quoted string. -/
def isQuote (b : UInt8) : Bool := b == 0x22 || b == 0x27

/-! ### Strings -/

/-- A word, possibly empty. -/
def word : Scan Text := spanOf isWordByte

/-- The content of a string up to the closing quote.  A backslash escapes only the quote and
    itself. -/
def quotedBody (quote : UInt8) : Scan Text := fun
  | [] => .error ⟨.unclosedQuote, []⟩
  | b :: t =>
    if b == quote then .ok ([], t)
    else if b == 0x5c then
      match t with
      | [] => .error ⟨.unclosedQuote, []⟩
      | c :: rest =>
        if c == quote || c == 0x5c then
          (quotedBody quote rest).map fun (s, r) => (c :: s, r)
        else .error ⟨.badEscape c, t⟩
    else (quotedBody quote t).map fun (s, r) => (b :: s, r)

/-- A string between single or double quotes, without the escapes. -/
def quotedString : Scan Text := fun
  | [] => .error ⟨.unquoted, []⟩
  | q :: t => if isQuote q then quotedBody q t else .error ⟨.unquoted, q :: t⟩

/-- A quoted string, or a word that may be empty. -/
def phrase : Scan Text := do
  if (← peek?).any isQuote then quotedString else word

/-- A quoted string or a word; an empty word, unlike empty quotes, is no string. -/
def phrase? : Scan (Option Text) := do
  if (← peek?).any isQuote then return some (← quotedString)
  let w ← word
  return if w.isEmpty then none else some w

/-! ### Brackets -/

/-- Items between commas up to `close`.  Blanks may surround every item; `unclosed` is the cause
    when the text ends, `expected` when another byte follows an item. -/
def separated {α : Type} (item : Scan α) (close : UInt8) (unclosed expected : Cause) :
    Nat → Scan (List α)
  | 0 => fail unclosed
  | n + 1 => do
    skipBlanks
    let first ← item
    skipBlanks
    match ← peek? with
    | none => fail unclosed
    | some _ =>
      if ← accept 0x2c then
        let others ← separated item close unclosed expected n
        return first :: others
      else
        require close expected
        return [first]

/-- What follows an opening bracket: nothing but blanks, or items between commas, up to `close`. -/
def bracketed {α : Type} (item : Scan α) (close : UInt8) (unclosed expected : Cause) :
    Scan (List α) := do
  skipBlanks
  if ← accept close then return []
  separated item close unclosed expected (← get).length.succ

/-- How a bracket changes the nesting depth. -/
def depthChange (b : UInt8) : Int :=
  if b == '[' || b == '\x7b' then 1 else if b == ']' || b == '\x7d' then -1 else 0

/-- The length of a text from its opening bracket to the one that closes it; brackets in quoted
    strings do not count.  `start` is where the bracket stands and `opener` the bracket. -/
def balanced (opener : UInt8) : Nat → Int → Scan Unit
  | 0, _ => fail (.unclosedBracket opener)
  | n + 1, depth => do
    match ← peek? with
    | none => fail (.unclosedBracket opener)
    | some b =>
      if isQuote b then
        let _ ← quotedString
        balanced opener n depth
      else
        set ((← get).drop 1)
        let depth := depth + depthChange b
        if depth == 0 && depthChange b == -1 then return ()
        balanced opener n depth

/-- What a scan took off the text, beside its value. -/
def taken {α : Type} (scan : Scan α) : Scan (α × Text) := fun t =>
  (scan t).map fun (v, rest) => ((v, t.take (t.length - rest.length)), rest)

end DatapackDebug.Argument
