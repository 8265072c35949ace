import DatapackDebug.Argument.Scan

namespace DatapackDebug.Argument

/-!
# Words

Arguments that are a word of their own: strings, objectives, operations, axes and anchors.
-/

/-- A word that is not empty. -/
def wordOf (what : Subject) : Scan Text := do
  let w ← word
  if w.isEmpty then fail (.missing what)
  return w

/-- The text up to the next space, which is not empty. -/
def chunkOf (what : Subject) : Scan Text := do
  let w ← untilBlank
  if w.isEmpty then fail (.missing what)
  return w

/-- A string with or without quotes, which is not an empty word. -/
def phraseOf (what : Subject) : Scan Text := do
  match ← phrase? with
  | some s => return s
  | none => fail (.missing what)

/-- Everything that is left. -/
def greedy : Scan Text := fun t => .ok (t, [])

/-- The operations on scores. -/
def operations : List Text := ["%=", "*=", "+=", "-=", "/=", "<", "=", ">", "><", "<<", ">>"]

/-- An operation on scores. -/
def operation : Scan Text := do
  let start ← get
  let op ← chunkOf .operation
  if operations.contains op then return op
  failAt start (.unknownOperation op)

/-- Is the text made of different axes? -/
def isSwizzle : Text → Bool
  | [] => true
  | b :: t => (b == 'x' || b == 'y' || b == 'z') && !t.contains b && isSwizzle t

/-- A combination of axes. -/
def swizzle : Scan Text := do
  let start ← get
  let axes ← chunkOf .swizzle
  if isSwizzle axes then return axes
  failAt start .malformedSwizzle

/-- The point of an entity that positions are measured from. -/
inductive Anchor where
  | eyes | feet
deriving DecidableEq, Repr

/-- The word for an anchor. -/
def Anchor.text : Anchor → Text
  | .eyes => "eyes"
  | .feet => "feet"

/-- An anchor. -/
def anchor : Scan Anchor := do
  let start ← get
  let w ← word
  if w == "eyes" then return .eyes
  else if w == "feet" then return .feet
  else if w.isEmpty then fail (.missing .anchor)
  else failAt start (.unknownAnchor w)

end DatapackDebug.Argument
