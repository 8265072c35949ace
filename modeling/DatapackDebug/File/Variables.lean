import DatapackDebug.Text.Basic

namespace DatapackDebug

/-!
# Variables in paths

A path can name variables of the environment, as `$name` or `${name}`.

* `PathPiece.split` — the pieces of a path;
* `PathPiece.join` — the path with its variables replaced.
-/

/-- A piece of a path. -/
inductive PathPiece where
  | literal (t : Text)
  | variable (name : Text)
deriving DecidableEq, Repr

namespace PathPiece

/-- Names of one byte. -/
def isSpecial (b : UInt8) : Bool :=
  Text.isDigit b || ([0x2a, 0x23, 0x24, 0x40, 0x21, 0x3f, 0x2d] : Text).contains b

/-- The bytes of longer names. -/
def isNameByte (b : UInt8) : Bool :=
  Text.isDigit b || Text.isLower b || Text.isUpper b || b == 0x5f

/-- The name after a dollar sign, and how many bytes it takes up.  Braces without a name are
    swallowed. -/
def name (t : Text) : Text × Nat :=
  match t with
  | [] => ([], 0)
  | 0x7b :: rest =>
    match rest with
    | b :: 0x7d :: _ => if isSpecial b then ([b], 3) else inBraces rest
    | _ => inBraces rest
  | b :: _ =>
    if isSpecial b then ([b], 1)
    else
      let name := t.takeWhile isNameByte
      (name, name.length)
where
  inBraces (rest : Text) : Text × Nat :=
    let name := rest.takeWhile (· != 0x7d)
    if name.length == rest.length then ([], 1) else (name, name.length + 2)

/-- The pieces of a path; literals are single bytes. -/
def split : Nat → Text → List PathPiece
  | 0, _ => []
  | _ + 1, [] => []
  | _ + 1, [b] => [.literal [b]]
  | fuel + 1, b :: t =>
    if b != 0x24 then .literal [b] :: split fuel t
    else
      let (name, width) := name t
      let rest := split fuel (t.drop width)
      if !name.isEmpty then .variable name :: rest
      else if width > 0 then rest
      else .literal [b] :: rest

/-- The pieces of a path. -/
def ofPath (t : Text) : List PathPiece := split t.length t

end PathPiece

end DatapackDebug
