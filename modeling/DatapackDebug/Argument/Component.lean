import DatapackDebug.Argument.Nbt
import DatapackDebug.Json.Reader

namespace DatapackDebug

/-!
# Text components

A component is JSON or, if no JSON value ends at a space or at the end of the text, a tag.
-/

/-- What a component says. -/
inductive ComponentValue where
  | json (v : Json)
  | nbt (v : Nbt)
deriving Repr

/-- A component with the text that it was read from. -/
structure Component where
  raw : Text
  value : ComponentValue
deriving Repr

namespace Argument

/-- The JSON value at the front of a text, if a space or the end follows it. -/
def jsonComponent? (t : Text) : Option (Json × Text) :=
  match Json.read t with
  | .ok (v, []) => some (v, [])
  | .ok (v, b :: rest) => if b == Text.blank then some (v, b :: rest) else none
  | .error _ => none

/-- The cause to report when a component is no tag either. -/
def componentCause (start : Text) (cause : Cause) : Cause :=
  if start.head?.any ("\x7b[\"" : Text).contains then .malformedComponent cause.message else cause

/-- The value of a component. -/
def componentValue : Scan ComponentValue := fun t =>
  match jsonComponent? t with
  | some (v, rest) => .ok (.json v, rest)
  | none =>
    match nbtTag t with
    | .ok (v, rest) => .ok (.nbt v, rest)
    | .error failure => .error ⟨componentCause t failure.cause, failure.rest⟩

/-- A component. -/
def component : Scan Component := do
  match ← peek? with
  | none => fail (.missing .component)
  | some b =>
    if b == Text.blank then fail (.missing .component)
    let (value, raw) ← taken componentValue
    return ⟨raw, value⟩

end Argument

end DatapackDebug
