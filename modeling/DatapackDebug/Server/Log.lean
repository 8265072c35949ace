import DatapackDebug.Text.Basic

namespace DatapackDebug

/-!
# The log of a server

A server writes the output of command blocks to its log, one line each:

`[12:34:56] [Server thread/INFO]: [name: output]`

* `LogEvent.ofLine?` — what a line of the log tells;
* `LogTail.feed` — the events of a log that is read in pieces of any size.
-/

/-- The output of a command block with a name. -/
structure LogEvent where
  executor : Text
  output : Text
deriving DecidableEq, Repr

namespace LogEvent

/-- The bytes of a time. -/
def isTimeByte (b : UInt8) : Bool := Text.isDigit b || b == ':' || b == '.' || b == Text.blank

/-- A byte of a line break. -/
def isBreak (b : UInt8) : Bool := b == 0x0d || b == 0x0a

/-- The text without line breaks at its end. -/
def dropBreaks (t : Text) : Text := (t.reverse.dropWhile isBreak).reverse

/-- What follows a time in brackets and a blank. -/
def afterTime? (t : Text) : Option Text := do
  let t ← Text.dropStart? "[" t
  let time := t.takeWhile isTimeByte
  if time.isEmpty then none else Text.dropStart? "] " (t.dropWhile isTimeByte)

/-- What follows a thread of level `INFO` in brackets. -/
def afterThread? (t : Text) : Option Text := do
  let t ← Text.dropStart? "[" t
  let thread ← Text.dropEnd? "/INFO" (t.takeWhile (· != 0x5d))
  if thread.isEmpty then none else Text.dropStart? "]: " (t.dropWhile (· != 0x5d))

/-- The name and the output in brackets. -/
def report? (t : Text) : Option LogEvent := do
  let t ← Text.dropStart? "[" t
  let isName (b : UInt8) : Bool := b != 0x3a && b != 0x5d
  let executor := t.takeWhile isName
  let rest ← Text.dropStart? ": " (t.dropWhile isName)
  let output ← Text.dropEnd? "]" rest
  if executor.isEmpty || output.contains 0x0a then none else some { executor, output }

/-- What a line of the log tells, if it is the output of a command block. -/
def ofLine? (line : Text) : Option LogEvent :=
  ((afterTime? (dropBreaks line)).bind afterThread?).bind report?

end LogEvent

/-- A reader of a growing log; it keeps a line that is not complete yet. -/
structure LogTail where
  pending : Text := []
deriving DecidableEq, Repr

namespace LogTail

/-- The complete lines of a text and what follows the last of them. -/
def completeLines (t : Text) : List Text × Text :=
  let parts := Text.splitOn 0x0a t
  (parts.dropLast, parts.getLast?.getD [])

/-- The events of the lines that a further piece of the log completes. -/
def feed (tail : LogTail) (piece : Text) : LogTail × List LogEvent :=
  let (lines, rest) := completeLines (tail.pending ++ piece)
  (⟨rest⟩, lines.filterMap LogEvent.ofLine?)

/-- The events of a log that was created anew; an incomplete line of the old one is dropped. -/
def rotate (content : Text) : LogTail × List LogEvent := feed {} content

end LogTail

end DatapackDebug
