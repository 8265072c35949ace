import DatapackDebug.Argument.Nbt
import DatapackDebug.Argument.Resource

namespace DatapackDebug

/-!
# Blocks, items and particles

A name, followed by properties or components between brackets and by data between braces, none of
which need be there.
-/

/-- A block with the state and data that a command gives or asks for. -/
structure Block where
  name : ResourceRef
  properties : Option (List (Text × Text))
  nbt : Option NbtEntries
deriving Repr

/-- An item; the text of its components is kept as it is. -/
structure Item where
  /-- any item at all, if there is none -/
  name : Option ResourceRef
  components : Text
  nbt : Option NbtEntries
deriving Repr

/-- A particle with its options. -/
structure Particle where
  name : ResourceName
  options : Option NbtEntries
deriving Repr

namespace Argument

/-- A property of a block with its value. -/
def blockProperty : Scan (Text × Text) := do
  match ← phrase? with
  | none =>
    if (← get).isEmpty then fail .unclosedProperties
    fail .missingProperty
  | some key =>
    skipBlanks
    require '=' (.missingPropertyValue key)
    skipBlanks
    match ← phrase? with
    | none => fail (.missingPropertyValue key)
    | some value => return (key, value)

/-- The properties of a block between brackets, if there are brackets. -/
def blockProperties? : Scan (Option (List (Text × Text))) := do
  if ← accept '[' then
    return some (← bracketed blockProperty ']' .unclosedProperties .unfinishedProperties)
  return none

/-- A block, or with `allowTag` a tag of blocks. -/
def block (allowTag : Bool) : Scan Block := do
  if !allowTag && (← peek?) == some 0x23 then fail .tagForBlock
  let name ← resourceRef
  let properties ← blockProperties?
  return ⟨name, properties, ← nbtCompound?⟩

/-- The text between brackets, brackets included, or nothing. -/
def itemComponents : Scan Text := do
  if (← peek?) == some 0x5b then
    let (_, text) ← taken (balanced '[' ((← get).length + 1) 0)
    return text
  return []

/-- An item, or with `allowTag` a tag of items or `*`. -/
def item (allowTag : Bool) : Scan Item := do
  if !allowTag && (← peek?) == some 0x23 then fail .tagForItem
  let any ← if allowTag then accept '*' else pure false
  let name ← if any then pure none else some <$> resourceRef
  let components ← itemComponents
  return ⟨name, components, ← nbtCompound?⟩

/-- A particle. -/
def particle : Scan Particle := do
  let name ← resource
  return ⟨name, ← nbtCompound?⟩

end Argument

end DatapackDebug
