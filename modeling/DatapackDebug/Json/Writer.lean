import DatapackDebug.Json.Basic

namespace DatapackDebug

/-!
# Writing JSON

* `Json.quoted` — a string between quotes;
* `Json.render` — a value on one line, without blanks;
* `Json.renderIndented` — a value with one field or item a line.

Strings are written so that a document can stand in a web page: `<`, `>`, `&` and the two Unicode
line separators are escaped.  A byte that is part of no character becomes the replacement
character.
-/

namespace Json

/-- The escapes with a letter of their own. -/
def shortEscapes : List (Nat × Text) :=
  [(0x22, "\\\""), (0x5c, "\\\\"), (0x08, "\\b"), (0x0c, "\\f"), (0x0a, "\\n"), (0x0d, "\\r"),
    (0x09, "\\t")]

/-- Is a code point written as a numbered escape? -/
def isEscaped (code : Nat) : Bool :=
  code < 0x20 || code == 0x3c || code == 0x3e || code == 0x26 || code == 0x2028 || code == 0x2029

/-- A piece of a string as it stands between quotes. -/
def quotedPiece : Utf8.Piece → Text
  | .stray _ => Utf8.encode Utf8.replacement
  | .char code =>
    match shortEscapes.lookup code with
    | some escape => escape
    | none => if isEscaped code then "\\u" ++ Text.hexDigits 4 code else Utf8.encode code

/-- A string between quotes. -/
def quoted (t : Text) : Text := "\"" ++ (Utf8.pieces t).flatMap quotedPiece ++ "\""

mutual

/-- A value without blanks, in front of `rest`. -/
def renderOnto (rest : Text) : Json → Text
  | .null => "null" ++ rest
  | .bool b => (if b then "true" else "false") ++ rest
  | .number numeral => numeral ++ rest
  | .string t => quoted t ++ rest
  | .array items => '[' :: renderItems (']' :: rest) items
  | .object fields => 0x7b :: renderFields (0x7d :: rest) fields

/-- The items of an array, in front of `rest`. -/
def renderItems (rest : Text) : List Json → Text
  | [] => rest
  | [v] => renderOnto rest v
  | v :: vs => renderOnto (',' :: renderItems rest vs) v

/-- The fields of an object, in front of `rest`. -/
def renderFields (rest : Text) : List (Text × Json) → Text
  | [] => rest
  | [(k, v)] => quoted k ++ ":" ++ renderOnto rest v
  | (k, v) :: fs => quoted k ++ ":" ++ renderOnto (',' :: renderFields rest fs) v

end

/-- A value without blanks. -/
def render (v : Json) : Text := renderOnto [] v

/-- The break before a line at a level of nesting. -/
def lineBreak (level : Nat) : Text := 0x0a :: List.replicate (2 * level) Text.blank

/-- The comma after all but the last of some things. -/
def comma {α : Type} (following : List α) : Text := if following.isEmpty then [] else ","

mutual

/-- A value whose fields and items stand on lines of their own, two blanks deeper than it. -/
def renderAt (level : Nat) : Json → Text
  | .array items =>
    if items.isEmpty then "[]"
    else "[" ++ renderLines (level + 1) items ++ lineBreak level ++ "]"
  | .object fields =>
    if fields.isEmpty then "\x7b\x7d"
    else "\x7b" ++ renderFieldLines (level + 1) fields ++ lineBreak level ++ "\x7d"
  | v => v.render

/-- The items of an array on lines of their own. -/
def renderLines (level : Nat) : List Json → Text
  | [] => []
  | v :: vs => lineBreak level ++ renderAt level v ++ comma vs ++ renderLines level vs

/-- The fields of an object on lines of their own. -/
def renderFieldLines (level : Nat) : List (Text × Json) → Text
  | [] => []
  | (k, v) :: fs =>
    lineBreak level ++ quoted k ++ ": " ++ renderAt level v ++ comma fs ++ renderFieldLines level fs

end

/-- A value with one field or item a line. -/
def renderIndented (v : Json) : Text := renderAt 0 v

end Json

end DatapackDebug
