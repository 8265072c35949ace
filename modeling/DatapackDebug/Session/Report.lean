import DatapackDebug.Argument.Resource

namespace DatapackDebug

/-!
# Reports of commands

What the server logs when a command of the debugger was executed.

* `Report.addedTag?` — `Added tag 'mcfd_exit' to Marker`;
* `Report.score?` — `holder has 3 [objective]`;
* `Report.frameName?` — the name of a frame, `ns:path:line:column`.
-/

/-- The score of a holder. -/
structure ReportedScore where
  holder : Text
  value : Int
  objective : Text
deriving DecidableEq, Repr

/-- A place in a function, as the name of a frame tells it. -/
structure FrameName where
  function : ResourceName
  line : Int
  column : Int
deriving DecidableEq, Repr

namespace Report

/-- A text of one line that is not empty. -/
def isLine (t : Text) : Bool := !t.isEmpty && !t.contains 0x0a

/-- The tag that a command has added to something. -/
def addedTag? (t : Text) : Option Text := do
  let t ← Text.dropStart? "Added tag '" t
  let tag := t.takeWhile (· != 0x27)
  let whom ← Text.dropStart? "' to " (t.dropWhile (· != 0x27))
  if tag.isEmpty || !isLine whom then none else some tag

/-- The value of a score, and its objective in brackets. -/
def valueAndObjective? (t : Text) : Option (Text × Text) := do
  let (sign, t) := match t with
    | 0x2d :: rest => (([0x2d] : Text), rest)
    | t => ([], t)
  let digits := t.takeWhile Text.isDigit
  let rest ← Text.dropStart? " [" (t.dropWhile Text.isDigit)
  let objective ← Text.dropEnd? "]" rest
  if digits.isEmpty || !isLine objective then none else some (sign ++ digits, objective)

/-- The longest holder that something follows which reads as its score; `front` is the text before,
    backwards. -/
def splitScore? (front : Text) : Text → Option (Text × Text × Text)
  | [] => none
  | b :: t =>
    (splitScore? (b :: front) t).or do
      let (value, objective) ← (Text.dropStart? " has " (b :: t)).bind valueAndObjective?
      if isLine front then some (front.reverse, value, objective) else none

/-- The score that a command has read; its value is a 64-bit word. -/
def score? (t : Text) : Option ReportedScore := do
  let (holder, value, objective) ← splitScore? [] t
  some { holder, value := ← Text.toIntOfBits? 64 value, objective }

/-- The place that the name of a frame tells. -/
def frameName? (t : Text) : Option FrameName := do
  let (t, column) ← Text.cutLast? ':' t
  let (t, line) ← Text.cutLast? ':' t
  some
    { line := ← Text.toIntOfBits? 64 line
      column := ← Text.toIntOfBits? 64 column
      function := ← (ResourceName.parse t).toOption }

end Report

end DatapackDebug
