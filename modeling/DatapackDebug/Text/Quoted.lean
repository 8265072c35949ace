import DatapackDebug.Text.Printable
import DatapackDebug.Text.Utf8

namespace DatapackDebug

/-!
# Quoted text in messages

Messages show a name that may hold anything between double quotes: printable characters stand for
themselves, the quote and the backslash are escaped, the common control characters have a letter,
other characters are given by their code and stray bytes by their value.  Single characters stand
between single quotes, and texts that need no escapes can stand between backquotes.

* `Text.quoted`, `Text.quotedChar`, `Text.verbatim` — the three forms.
-/

namespace Text

/-- The last `width` hexadecimal digits of a number. -/
def hexDigits : Nat → Nat → Text
  | 0, _ => []
  | width + 1, n => hexDigits width (n / 16) ++ [hexDigit (n % 16)]

/-- The bytes of a text in hexadecimal. -/
def toHex (t : Text) : Text := t.flatMap fun b => hexDigits 2 b.toNat

/-- The bytes that pairs of hexadecimal digits stand for, up to the first that is none. -/
def ofHex : Text → Text
  | a :: b :: t =>
    match hexValue? a, hexValue? b with
    | some x, some y => UInt8.ofNat (16 * x + y) :: ofHex t
    | _, _ => []
  | _ => []

/-- The letter that follows the backslash for a control character with a short form. -/
def controlLetter? (code : Nat) : Option UInt8 :=
  if code == 0x07 then some 'a'
  else if code == 0x08 then some 'b'
  else if code == 0x0c then some 'f'
  else if code == 0x0a then some 'n'
  else if code == 0x0d then some 'r'
  else if code == 0x09 then some 't'
  else if code == 0x0b then some 'v'
  else none

/-- How one character or stray byte appears between quotes of a kind. -/
def quotedPiece (quote : Nat) : Utf8.Piece → Text
  | .stray b => "\\x" ++ hexDigits 2 b.toNat
  | .char code =>
    if code == quote || code == 0x5c then [0x5c, UInt8.ofNat code]
    else if isPrintable code then Utf8.encode code
    else match controlLetter? code with
      | some letter => [0x5c, letter]
      | none =>
        if code < 0x20 || code == 0x7f then "\\x" ++ hexDigits 2 code
        else if code < 0x10000 then "\\u" ++ hexDigits 4 code
        else "\\U" ++ hexDigits 8 code

/-- The text between double quotes, with everything that is not printable escaped. -/
def quoted (t : Text) : Text := [0x22] ++ (Utf8.pieces t).flatMap (quotedPiece 0x22) ++ [0x22]

/-- A character between single quotes. -/
def quotedChar (code : Nat) : Text := [0x27] ++ quotedPiece 0x27 (.char code) ++ [0x27]

/-- Can the text stand between backquotes, where nothing is escaped?  It has no backquote, no
    control character but the tab, no byte order mark and no stray byte. -/
def isVerbatim (t : Text) : Bool :=
  (Utf8.pieces t).all fun
    | .stray _ => false
    | .char code =>
      (0x20 ≤ code || code == 0x09) && code != 0x60 && code != 0x7f && code != 0xfeff

/-- The text between backquotes, or between double quotes where it has to be escaped. -/
def verbatim (t : Text) : Text := if isVerbatim t then [0x60] ++ t ++ [0x60] else quoted t

end Text

end DatapackDebug
