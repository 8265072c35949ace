import DatapackDebug.Argument.Nbt
import DatapackDebug.Argument.Resource
import DatapackDebug.SortedAssoc
import DatapackDebug.Text.Blank

namespace DatapackDebug

/-!
# Selectors, entities and score holders

A selector is `@` with a letter and, between brackets, options.  Known options have a value of their
own kind, some of them may be negated by `!`; the value of an unknown option is kept as text.

* `Selector` — with `isSingle`, `isPlayersOnly` and the `objectives` it names;
* `Argument.selector`, `Argument.entity`, `Argument.scoreHolder`, `Argument.uuid` — readers.
-/

/-- Whom a selector chooses from. -/
inductive SelectorType where
  | nearest | all | random | self | entities
deriving DecidableEq, Repr

/-- The letter of a selector. -/
def SelectorType.letter : SelectorType → UInt8
  | .nearest => 'p'
  | .all => 'a'
  | .random => 'r'
  | .self => 's'
  | .entities => 'e'

/-- The selector of a letter. -/
def SelectorType.ofLetter? (b : UInt8) : Option SelectorType :=
  [.nearest, .all, .random, .self, .entities].find? fun (t : SelectorType) => t.letter == b

/-- What an option asks of one advancement. -/
inductive AdvancementTest where
  | done (value : Bool)
  /-- per criterion -/
  | criteria (values : List (Text × Bool))
deriving DecidableEq, Repr

/-- The value of an option. -/
inductive SelectorValue where
  | string (t : Text)
  | integer (n : Int)
  | double (x : Binary)
  | range (r : Argument.Range)
  | compound (entries : NbtEntries)
  | resource (name : ResourceName)
  | ref (ref : ResourceRef)
  | scores (ranges : List (Text × Argument.Range))
  | advancements (tests : List (Text × AdvancementTest))
  /-- the value of an unknown option -/
  | raw (t : Text)
deriving Repr

/-- An option of a selector; `offset` is the distance of its key from the `@`. -/
structure SelectorOption where
  key : Text
  negated : Bool
  value : SelectorValue
  offset : Nat
deriving Repr

/-- A selector of entities. -/
structure Selector where
  type : SelectorType
  options : List SelectorOption
deriving Repr

namespace Selector

/-- The first option of a key. -/
def option? (s : Selector) (key : Text) : Option SelectorOption :=
  s.options.find? fun o => o.key == key

/-- Does the selector choose at most one entity? -/
def isSingle (s : Selector) : Bool :=
  match s.type with
  | .nearest | .random | .self => true
  | _ =>
    match s.option? "limit" with
    | some { value := .integer n, .. } => n ≤ 1
    | _ => false

/-- Does the selector choose only players? -/
def isPlayersOnly (s : Selector) : Bool :=
  match s.type with
  | .nearest | .all | .random => true
  | _ =>
    match s.option? "type" with
    | some { negated := false, value := .ref ref, .. } =>
      !ref.tag && ref.name == ⟨"minecraft", "player"⟩
    | _ => false

/-- The objectives that the options on scores name. -/
def objectives (s : Selector) : List Text :=
  s.options.flatMap fun o =>
    match o.value with
    | .scores ranges => ranges.map (·.1)
    | _ => []

end Selector

/-- What an entity argument is. -/
inductive EntityRef where
  | selector (s : Selector)
  | uuid (text : Text)
  | name (t : Text)
deriving Repr

/-- Whose score a command means. -/
inductive ScoreHolder where
  /-- everyone with a score -/
  | all
  | selector (s : Selector)
  | name (t : Text)
deriving Repr

namespace Argument

/-! ### Values of options -/

/-- The bytes of keys between braces. -/
def isMapKeyByte (b : UInt8) : Bool := isResourceByte b || isWordByte b

/-- A key, an equals sign and a value. -/
def mapEntry {α : Type} (value : Scan α) : Scan (Text × α) := do
  let key ← spanOf isMapKeyByte
  if key.isEmpty then fail .missingKey
  skipBlanks
  require '=' (.missingByte '=')
  skipBlanks
  return (key, ← value)

/-- Keys with values between braces. -/
def braced {α : Type} (value : Scan α) : Scan (List (Text × α)) := do
  require '\x7b' (.missingByte '\x7b')
  bracketed (mapEntry value) '\x7d' .unclosedMap (.missingByte '\x7d')

/-- A truth value, or the truth values of criteria. -/
def advancementTest : Scan AdvancementTest := do
  if (← peek?) == some 0x7b then
    return .criteria (SortedAssoc.ofList Text.compare (← braced boolean))
  return .done (← boolean)

/-- The orders that chosen entities can have. -/
def sortOrders : List Text := ["nearest", "furthest", "random", "arbitrary"]

/-- An order of the chosen entities. -/
def sortOrder : Scan Text := do
  let start ← get
  let w ← word
  if sortOrders.contains w then return w
  failAt start (.unknownSort w)

/-- How the value of an option is read, and whether it may be negated. -/
structure OptionRule where
  negatable : Bool
  value : Scan SelectorValue

/-- Options whose value is a number. -/
def numberOption : OptionRule := ⟨false, return .double (← double)⟩

/-- Options whose value is a range of numbers. -/
def rangeOption (decimals : Bool) : OptionRule := ⟨false, return .range (← range decimals)⟩

/-- Options whose value is a word, possibly empty, that may be negated. -/
def labelOption : OptionRule := ⟨true, return .string (← word)⟩

/-- The known options. -/
def optionRules : List (Text × OptionRule) :=
  [("advancements",
      ⟨false, return .advancements (SortedAssoc.ofList Text.compare (← braced advancementTest))⟩),
    ("distance", rangeOption true),
    ("dx", numberOption),
    ("dy", numberOption),
    ("dz", numberOption),
    ("gamemode", labelOption),
    ("level", rangeOption false),
    ("limit", ⟨false, return .integer (← integer .integer 32 ⟨1, 2147483647⟩)⟩),
    ("name", ⟨true, return .string (← phrase)⟩),
    ("nbt", ⟨true, return .compound (← nbtCompound)⟩),
    ("predicate", ⟨true, return .resource (← resource)⟩),
    ("scores", ⟨false, return .scores (← braced (range false))⟩),
    ("sort", ⟨false, return .string (← sortOrder)⟩),
    ("tag", labelOption),
    ("team", labelOption),
    ("type", ⟨true, return .ref (← resourceRef)⟩),
    ("x", numberOption),
    ("x_rotation", rangeOption true),
    ("y", numberOption),
    ("y_rotation", rangeOption true),
    ("z", numberOption)]

/-- Skip the value of an unknown option: up to a comma or closing bracket outside of brackets and
    quotes. -/
def skipOptionValue : Nat → Int → Scan Unit
  | 0, _ => fail .unclosedOptions
  | n + 1, depth => do
    match ← peek? with
    | none => fail .unclosedOptions
    | some b =>
      if isQuote b then
        let _ ← quotedString
        skipOptionValue n depth
      else if depth == 0 && (b == ']' || b == ',') then return ()
      else
        set ((← get).drop 1)
        skipOptionValue n (depth + depthChange b)

/-- The value of an unknown option without white space around it. -/
def rawOptionValue : Scan SelectorValue := do
  let (_, text) ← taken (skipOptionValue ((← get).length + 1) 0)
  return .raw (Text.trim text)

/-! ### Selectors -/

/-- One option; `total` is the length of the text from the `@` on. -/
def selectorOption (total : Nat) : Scan SelectorOption := do
  let offset := total - (← get).length
  match ← phrase? with
  | none =>
    if (← get).isEmpty then fail .unclosedOptions
    fail .missingOption
  | some key =>
    skipBlanks
    require '=' (.missingOptionValue key)
    skipBlanks
    match optionRules.lookup key with
    | some known =>
      let negated ← if known.negatable then accept '!' else pure false
      if negated then skipBlanks
      return ⟨key, negated, ← known.value, offset⟩
    | none => return ⟨key, false, ← rawOptionValue, offset⟩

/-- A selector. -/
def selector : Scan Selector := do
  let start ← get
  match start with
  | 0x40 :: b :: t =>
    match SelectorType.ofLetter? b with
    | none => failAt (b :: t) (.unknownSelector b)
    | some type =>
      set t
      if ← accept '[' then
        let options ←
          bracketed (selectorOption start.length) ']' .unclosedOptions .unfinishedOptions
        return ⟨type, options⟩
      return ⟨type, []⟩
  | _ => fail .missingSelector

/-! ### Entities -/

/-- The lengths of the groups of digits of a UUID. -/
def uuidGroups : List Nat := [8, 4, 4, 4, 12]

/-- A group of at most `length` hexadecimal digits, filled up with zeros in front. -/
def uuidGroup? (group : Text) (length : Nat) : Option Text :=
  if group.isEmpty || length < group.length || !group.all Text.isHex then none
  else some (List.replicate (length - group.length) 0x30 ++ group.map Text.toLower)

/-- The canonical form of a UUID given by five groups of digits whose leading zeros may be left
    out. -/
def uuid? (text : Text) : Option Text :=
  let groups := Text.splitOn '-' text
  if groups.length != uuidGroups.length then none
  else ((groups.zip uuidGroups).mapM fun (g, n) => uuidGroup? g n).map (Text.join "-")

/-- A UUID. -/
def uuid : Scan Text := do
  let start ← get
  let text ← spanOf fun b => Text.isHex b || b == '-'
  if text.isEmpty then fail (.missing .uuid)
  match uuid? text with
  | some id => return id
  | none => failAt start .malformedUuid

/-- Entities: a selector, a UUID or a name. -/
def entity (single playersOnly : Bool) : Scan EntityRef := do
  let start ← get
  if (← peek?) == some 0x40 then
    let s ← selector
    if single && !s.isSingle then
      failAt start (if playersOnly then .severalPlayers else .severalEntities)
    if playersOnly && !s.isPlayersOnly then failAt start .nonPlayers
    return .selector s
  let text ← untilBlank
  if text.isEmpty then fail (.missing .entity)
  return match uuid? text with
    | some id => .uuid id
    | none => .name text

/-- Score holders: a selector, `*` or a name. -/
def scoreHolder (single : Bool) : Scan ScoreHolder := do
  let start ← get
  if (← peek?) == some 0x40 then
    let s ← selector
    if single && !s.isSingle then failAt start .severalEntities
    return .selector s
  let text ← untilBlank
  if text.isEmpty then fail (.missing .scoreHolder)
  return if text == "*" then .all else .name text

end Argument

end DatapackDebug
