import DatapackDebug.Number.Literal
import DatapackDebug.Text.Quoted

namespace DatapackDebug

/-!
# JSON values

Values as they stand in a document: numbers keep their numeral and objects the order of their
fields, repeated names included.

* `Json.height` — how deep values are nested;
* `Json.field?` — the last field of a name;
* `Json.ErrorContext`, `Json.SyntaxError` — where a document goes wrong, and the message.
-/

/-- A JSON value. -/
inductive Json where
  | null
  | bool (b : Bool)
  | number (numeral : Text)
  | string (t : Text)
  | array (items : List Json)
  | object (fields : List (Text × Json))
deriving Repr, Inhabited

namespace Json

mutual

/-- How deep values are nested in a value. -/
def height : Json → Nat
  | .null | .bool _ | .number _ | .string _ => 0
  | .array items => heightOfItems items + 1
  | .object fields => heightOfFields fields + 1

/-- How deep values are nested in items. -/
def heightOfItems : List Json → Nat
  | [] => 0
  | v :: vs => max v.height (heightOfItems vs)

/-- How deep values are nested in fields. -/
def heightOfFields : List (Text × Json) → Nat
  | [] => 0
  | (_, v) :: fs => max v.height (heightOfFields fs)

end

/-- The last field of a name in an object. -/
def field? (name : Text) : Json → Option Json
  | .object fields => (fields.reverse.find? fun f => f.1 == name).map (·.2)
  | _ => none

/-- What a document was expected to go on with. -/
inductive ErrorContext where
  | value
  | key
  | afterKey
  | afterField
  | afterItem
  | afterDocument
  | inString
  | inNumeral
  | inWord (word : Text) (expected : UInt8)
deriving DecidableEq, Repr

/-- The words of a message that say where a character was found. -/
def ErrorContext.message : ErrorContext → Text
  | .value => "looking for beginning of value"
  | .key => "looking for beginning of object key string"
  | .afterKey => "after object key"
  | .afterField => "after object key:value pair"
  | .afterItem => "after array element"
  | .afterDocument => "after top-level value"
  | .inString => "in string"
  | .inNumeral => "in numeric literal"
  | .inWord word expected => "in literal " ++ word ++ " (expecting '" ++ [expected] ++ "')"

/-- Why a text is not a JSON document. -/
inductive SyntaxError where
  /-- the document ends too early -/
  | ended
  /-- a character that cannot stand where it does -/
  | unexpected (found : Utf8.Piece) (context : ErrorContext)
  /-- a backslash in a string and what follows it stand for nothing -/
  | badEscape (escape : Text)
  /-- a bracket or brace that does not close what is open -/
  | mismatchedClose
  /-- the name of a field is not a string -/
  | badName
  /-- a field ends behind its name -/
  | noFieldValue
  /-- arrays and objects are nested too deeply -/
  | tooDeep
deriving DecidableEq, Repr

/-- The error at the start of the rest of a document. -/
def SyntaxError.at (context : ErrorContext) (rest : Text) : SyntaxError :=
  match Utf8.pieces (rest.take 4) with
  | [] => .ended
  | found :: _ => .unexpected found context

/-- How a message shows a character. -/
def shownPiece : Utf8.Piece → Text
  | .char code => Text.quotedChar code
  | .stray b => "'\\x" ++ Text.hexDigits 2 b.toNat ++ "'"

/-- How a message shows an escape: between backquotes if it has visible characters only. -/
def shownEscape (t : Text) : Text :=
  let visible := (Utf8.pieces t).all fun
    | .stray _ => false
    | .char code =>
      Text.isPrintable code && code != 0x20 && code != 0x60 && code != Utf8.replacement
  if visible then [0x60] ++ t ++ [0x60] else Text.quoted t

/-- The message of a syntax error, where `ended` is said in the given words. -/
def SyntaxError.message (ended : Text) : SyntaxError → Text
  | .ended => ended
  | .unexpected found context => "invalid character " ++ shownPiece found ++ " " ++ context.message
  | .badEscape escape => "invalid escape sequence " ++ shownEscape escape ++ " in string"
  | .mismatchedClose => "mismatching structural token for object or array"
  | .badName => "object member name must be a string"
  | .noFieldValue => "missing value after object key"
  | .tooDeep => "exceeded max depth"

/-- What a message calls a value of a kind that does not fit. -/
def kindName : Json → Text
  | .null => "null"
  | .bool _ => "bool"
  | .number _ => "number"
  | .string _ => "string"
  | .array _ => "array"
  | .object _ => "object"

end Json

end DatapackDebug
