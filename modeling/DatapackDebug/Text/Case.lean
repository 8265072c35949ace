import DatapackDebug.Text.Utf8

namespace DatapackDebug.Text

/-!
# Names without regard to case

* `foldCase` — the same text for all spellings of a name of ASCII letters.
-/

/-- A name without its case.  Two letters beyond ASCII are variants of letters within it: the long s
    and the sign of the kelvin. -/
def foldCase (t : Text) : Text :=
  (Utf8.pieces t).flatMap fun
    | .char 0x17f => [0x73]
    | .char 0x212a => [0x6b]
    | .char code => (Utf8.encode code).map toLower
    | .stray b => [b]

/-- Are two names the same but for their case? -/
def sameName (s t : Text) : Bool := foldCase s == foldCase t

end DatapackDebug.Text
