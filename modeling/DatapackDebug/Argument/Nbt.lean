import DatapackDebug.Argument.Number

namespace DatapackDebug

/-!
# Tags

The data of entities and blocks in its textual form: compounds, lists, typed arrays of numbers,
strings and numbers with an optional type suffix.

* `Nbt` — a tag; a compound keeps the order of its entries and repeated keys;
* `Argument.nbtTag`, `Argument.nbtCompound` — readers;
* `Argument.nbtPath` — a path into a tag.
-/

/-- The element types of arrays. -/
inductive NbtArrayType where
  | bytes | ints | longs
deriving DecidableEq, Repr

/-- The letter of an array type. -/
def NbtArrayType.letter : NbtArrayType → UInt8
  | .bytes => 'B'
  | .ints => 'I'
  | .longs => 'L'

/-- A number as it is written, with the lower case letter of its type if it has one. -/
structure NbtNumber where
  text : Text
  suffix : Option UInt8
  value : Binary
deriving DecidableEq, Repr

/-- A tag. -/
inductive Nbt where
  | compound (entries : List (Text × Nbt))
  | list (items : List Nbt)
  | array (type : NbtArrayType) (items : List NbtNumber)
  | string (t : Text)
  | number (n : NbtNumber)
deriving Repr, Inhabited

/-- The entries of a compound in order. -/
abbrev NbtEntries := List (Text × Nbt)

/-- The first value of a key. -/
def NbtEntries.get? (key : Text) (entries : NbtEntries) : Option Nbt :=
  (entries.find? fun e => e.1 == key).map (·.2)

/-- One step of a path into a tag. -/
inductive NbtPathNode where
  /-- the root, if it matches -/
  | root (filter : NbtEntries)
  /-- an entry of a compound, if it matches -/
  | child (key : Text) (filter : Option NbtEntries)
  /-- the element at an index, counted from the end if negative -/
  | element (index : Int)
  /-- all elements that match -/
  | elements (filter : Option NbtEntries)
deriving Repr

namespace Argument

/-! ### Tags -/

/-- The letters that may follow a number. -/
def nbtSuffixes : Text := "bBsSlLfFdD"

/-- The bytes that a plain number cannot hold: those of exponents, of infinities and of `nan`, and
    the plus sign. -/
def nbtNumberStops : Text := "eEnN+"

/-- The tag that a word stands for: a number where it reads as one, otherwise a string. -/
def nbtPrimitive (word : Text) : Nbt :=
  if word == "true" then .number ⟨word, some 'b', .ofIntDouble 1⟩
  else if word == "false" then .number ⟨word, some 'b', .ofIntDouble 0⟩
  else
    let suffix := word.getLast?.filter nbtSuffixes.contains
    let body := if suffix.isSome then word.dropLast else word
    match Binary.ofText? .double body with
    | some v =>
      if body.any nbtNumberStops.contains then .string word
      else .number ⟨word, suffix.map Text.toLower, v⟩
    | none => .string word

/-- The array type that the text names, if it starts with the header of an array. -/
def nbtArrayHeader? : Text → Option (NbtArrayType × Text)
  | 0x5b :: 0x42 :: 0x3b :: t => some (.bytes, t)
  | 0x5b :: 0x49 :: 0x3b :: t => some (.ints, t)
  | 0x5b :: 0x4c :: 0x3b :: t => some (.longs, t)
  | _ => none

/-- The numbers of a list, if it holds nothing else. -/
def nbtNumbers? (items : List Nbt) : Option (List NbtNumber) :=
  items.mapM fun
    | .number n => some n
    | _ => none

/-- A key, a colon and a value. -/
def nbtEntry (value : Scan Nbt) : Scan (Text × Nbt) := do
  match ← phrase? with
  | none => fail .missingKey
  | some key =>
    skipBlanks
    require ':' (.missingByte ':')
    skipBlanks
    return (key, ← value)

/-- A compound whose values are read by `value`. -/
def nbtCompoundOf (value : Scan Nbt) : Scan NbtEntries := do
  require '\x7b' (.missingByte '\x7b')
  bracketed (nbtEntry value) '\x7d' .unclosedCompound (.missingByte '\x7d')

/-- The elements behind the opening of a list or array. -/
def nbtElements (value : Scan Nbt) : Scan (List Nbt) :=
  bracketed value ']' .unclosedList (.missingByte ']')

/-- A tag that is nested less than `depth` deep. -/
def nbtTagWithin : Nat → Scan Nbt
  | 0 => fail .missingTag
  | depth + 1 => do
    let start ← get
    match start with
    | [] => fail .missingTag
    | b :: t =>
      if b == '\x7b' then return .compound (← nbtCompoundOf (nbtTagWithin depth))
      else if b == '[' then
        match nbtArrayHeader? start with
        | some (type, body) =>
          set body
          match nbtNumbers? (← nbtElements (nbtTagWithin depth)) with
          | some items => return .array type items
          | none => failAt start .nonNumericElement
        | none =>
          set t
          return .list (← nbtElements (nbtTagWithin depth))
      else if isQuote b then return .string (← quotedString)
      else
        let w ← word
        if w.isEmpty then fail .missingTag
        return nbtPrimitive w

/-- A tag.  Every level of nesting takes a byte, so the length of the text bounds the depth. -/
def nbtTag : Scan Nbt := do nbtTagWithin ((← get).length + 1)

/-- A compound. -/
def nbtCompound : Scan NbtEntries := do nbtCompoundOf (nbtTagWithin (← get).length)

/-- A compound if a brace is next. -/
def nbtCompound? : Scan (Option NbtEntries) := do
  if (← peek?) == some 0x7b then return some (← nbtCompound) else return none

/-! ### Paths -/

/-- The bytes of keys without quotes. -/
def isNbtPathByte (b : UInt8) : Bool :=
  b != ' ' && b != '.' && b != '[' && b != ']' && b != '\x7b' && b != '\x7d' && !isQuote b

/-- The key of a path node. -/
def nbtPathKey : Scan Text := do
  if (← peek?).any isQuote then quotedString
  else
    let key ← spanOf isNbtPathByte
    if key.isEmpty then fail .malformedPathNode
    return key

/-- An index between brackets, behind the opening one. -/
def nbtPathIndex : Scan NbtPathNode := do
  skipBlanks
  if ← accept ']' then return .elements none
  let node : NbtPathNode ← do
    match ← nbtCompound? with
    | some filter => pure (.elements (some filter))
    | none => pure (.element (← integer32))
  skipBlanks
  if (← get).isEmpty then fail .unclosedIndex
  require ']' (.missingByte ']')
  return node

/-- Where a path stands. -/
inductive NbtPathState where
  /-- nothing was read -/
  | start
  /-- a key must follow -/
  | key
  /-- a node is complete -/
  | node
deriving DecidableEq

/-- The nodes of a path up to a space or the end. -/
def nbtPathNodes : Nat → NbtPathState → Scan (List NbtPathNode)
  | 0, _ => fail .malformedPathNode
  | n + 1, state => do
    match (← peek?).filter (· != Text.blank), state with
    | none, .start => fail (.missing .nbtPath)
    | none, .key => fail .missingPathNode
    | none, .node => return []
    | some b, state =>
      if state == .node then
        if ← accept '.' then nbtPathNodes n .key
        else if ← accept '[' then
          let node ← nbtPathIndex
          return node :: (← nbtPathNodes n .node)
        else fail .malformedPathNode
      else if state == .start && b == '\x7b' then
        let filter ← nbtCompound
        return .root filter :: (← nbtPathNodes n .node)
      else
        let key ← nbtPathKey
        let filter ← nbtCompound?
        return .child key filter :: (← nbtPathNodes n .node)

/-- A path into a tag. -/
def nbtPath : Scan (List NbtPathNode) := do nbtPathNodes ((← get).length + 1) .start

end Argument

end DatapackDebug
