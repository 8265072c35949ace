import DatapackDebug.Text.Utf8

namespace DatapackDebug

/-!
# White space

The characters with the White_Space property, and the text without those at its two ends.  Zero
width characters and the byte order mark are not among them.
-/

namespace Text

/-- The code points that are white space. -/
def blankCodes : List Nat :=
  [0x09, 0x0a, 0x0b, 0x0c, 0x0d, 0x20, 0x85, 0xa0, 0x1680, 0x2000, 0x2001, 0x2002, 0x2003, 0x2004,
    0x2005, 0x2006, 0x2007, 0x2008, 0x2009, 0x200a, 0x2028, 0x2029, 0x202f, 0x205f, 0x3000]

/-- The encodings of white space. -/
def blankTexts : List Text := blankCodes.map Utf8.encode

/-- The text without the marks of `marks` that it starts with. -/
def dropMarks (marks : List Text) : Nat → Text → Text
  | 0, t => t
  | n + 1, t =>
    match marks.findSome? (dropStart? · t) with
    | some rest => dropMarks marks n rest
    | none => t

/-- The text without white space in front. -/
def trimStart (t : Text) : Text := dropMarks blankTexts t.length t

/-- The text without white space behind. -/
def trimEnd (t : Text) : Text :=
  (dropMarks (blankTexts.map List.reverse) t.length t.reverse).reverse

/-- The text without white space at either end. -/
def trim (t : Text) : Text := trimEnd (trimStart t)

end Text

end DatapackDebug
