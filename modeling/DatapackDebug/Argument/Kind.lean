import DatapackDebug.Argument.Block
import DatapackDebug.Argument.Component
import DatapackDebug.Argument.Selector
import DatapackDebug.Argument.Word

namespace DatapackDebug.Argument

/-!
# Kinds of arguments

A command tree names the kind of each argument by an id and properties; a kind knows how to read its
values.

* `Kind.ofId` — the kind of an id; an id that is not known reads up to the next space;
* `Kind.scan` — the reader of a kind;
* `Kind.parse` — the value at the front of an input with its length, or a failure with its position.
-/

/-- A kind of argument. -/
inductive Kind where
  | bool
  | integer (bounds : IntBounds)
  | long (bounds : IntBounds)
  | float (bounds : DecimalBounds)
  | double (bounds : DecimalBounds)
  /-- a string: the type `greedy` takes everything, `phrase` allows quotes, others are words -/
  | string (type : Text)
  | word
  | objective
  | criterion
  | operation
  | swizzle
  | anchor
  | message
  | angle
  | range (decimals : Bool)
  | coordinates (shape : CoordinatesShape)
  | time (least : Int)
  | resource
  | resourceOrTag
  | function
  | entity (single playersOnly : Bool)
  | scoreHolder (single : Bool)
  | uuid
  | nbtCompound
  | nbtTag
  | nbtPath
  | component
  | block (allowTag : Bool)
  | item (allowTag : Bool)
  | particle
  | unknown (id : Text)
deriving DecidableEq, Repr

/-- The value of an argument. -/
inductive Value where
  | bool (b : Bool)
  | integer (n : Int)
  | long (n : Int)
  | float (x : Binary)
  | double (x : Binary)
  | string (t : Text)
  /-- text that is not interpreted -/
  | raw (t : Text)
  | objective (name : Text)
  | operation (op : Text)
  | swizzle (axes : Text)
  | anchor (a : Anchor)
  | angle (a : Angle)
  | range (r : Range)
  | coordinates (cs : List Coordinate)
  | time (t : Time)
  | resource (name : ResourceName)
  | ref (r : ResourceRef)
  | function (r : ResourceRef)
  | entity (e : EntityRef)
  | scoreHolder (h : ScoreHolder)
  | uuid (text : Text)
  | nbt (tag : Nbt)
  | nbtPath (nodes : List NbtPathNode)
  | component (c : Component)
  | block (b : Block)
  | item (i : Item)
  | particle (p : Particle)
deriving Repr

/-! ### From ids to kinds -/

/-- The properties that a command tree gives an argument, in order; the last of a name counts. -/
abbrev Properties := List (Text × Json)

namespace Properties

/-- The property of a name. -/
def find? (key : Text) (ps : Properties) : Option Json :=
  (ps.reverse.find? fun p => p.1 == key).map (·.2)

/-- A property that is a string; anything else counts as the empty string. -/
def text (ps : Properties) (key : Text) : Text :=
  match ps.find? key with
  | some (.string t) => t
  | _ => []

/-- A property that is a number, where `null` counts as zero; anything else is ignored. -/
def number? (ps : Properties) (key : Text) : Option Binary :=
  match ps.find? key with
  | some (.number numeral) => Binary.ofText? .double numeral
  | some .null => some .zero
  | _ => none

/-- A number without its fraction, as a 64-bit word. -/
def integer? (ps : Properties) (key : Text) : Option Int :=
  (ps.number? key).map fun x => Binary.toWord x.truncate

/-- The bounds of an integer, where those of the word stand in for missing ones. -/
def intBounds (ps : Properties) (bits : Nat) : IntBounds :=
  let all := IntBounds.ofBits bits
  ⟨(ps.integer? "min").getD all.least, (ps.integer? "max").getD all.greatest⟩

/-- The bounds of a decimal. -/
def decimalBounds (ps : Properties) : DecimalBounds := ⟨ps.number? "min", ps.number? "max"⟩

/-- Is only one entity allowed? -/
def single (ps : Properties) : Bool := ps.text "amount" == "single"

end Properties

/-- The ids of arguments that are a word. -/
def wordIds : List Text :=
  ["minecraft:color", "minecraft:team", "minecraft:scoreboard_slot", "minecraft:item_slot",
    "minecraft:item_slots", "minecraft:heightmap", "minecraft:template_mirror",
    "minecraft:template_rotation", "minecraft:gamemode"]

/-- The ids of arguments that are the name of a resource. -/
def resourceIds : List Text :=
  ["minecraft:dimension", "minecraft:entity_summon", "minecraft:item_enchantment",
    "minecraft:mob_effect", "minecraft:resource", "minecraft:resource_key",
    "minecraft:resource_location", "minecraft:loot_table", "minecraft:loot_predicate",
    "minecraft:loot_modifier"]

/-- The other kinds without properties, by their ids. -/
def plainKinds : List (Text × Kind) :=
  [("brigadier:bool", .bool),
    ("minecraft:angle", .angle),
    ("minecraft:block_pos", .coordinates { count := 3, integral := true }),
    ("minecraft:block_predicate", .block true),
    ("minecraft:block_state", .block false),
    ("minecraft:column_pos", .coordinates { count := 2, integral := true }),
    ("minecraft:component", .component),
    ("minecraft:style", .component),
    ("minecraft:resource_or_tag", .resourceOrTag),
    ("minecraft:resource_or_tag_key", .resourceOrTag),
    ("minecraft:game_profile", .entity false true),
    ("minecraft:entity_anchor", .anchor),
    ("minecraft:float_range", .range true),
    ("minecraft:int_range", .range false),
    ("minecraft:function", .function),
    ("minecraft:item_predicate", .item true),
    ("minecraft:item_stack", .item false),
    ("minecraft:message", .message),
    ("minecraft:nbt_compound_tag", .nbtCompound),
    ("minecraft:nbt_tag", .nbtTag),
    ("minecraft:nbt_path", .nbtPath),
    ("minecraft:objective", .objective),
    ("minecraft:objective_criteria", .criterion),
    ("minecraft:operation", .operation),
    ("minecraft:particle", .particle),
    ("minecraft:rotation", .coordinates { count := 2, rotation := true }),
    ("minecraft:swizzle", .swizzle),
    ("minecraft:uuid", .uuid),
    ("minecraft:vec2", .coordinates { count := 2 }),
    ("minecraft:vec3", .coordinates { count := 3 })]

/-- The kinds with properties, by their ids. -/
def propertyKinds : List (Text × (Properties → Kind)) :=
  [("brigadier:double", fun ps => .double ps.decimalBounds),
    ("brigadier:float", fun ps => .float ps.decimalBounds),
    ("brigadier:integer", fun ps => .integer (ps.intBounds 32)),
    ("brigadier:long", fun ps => .long (ps.intBounds 64)),
    ("brigadier:string", fun ps => .string (ps.text "type")),
    ("minecraft:entity", fun ps => .entity ps.single (ps.text "type" == "players")),
    ("minecraft:score_holder", fun ps => .scoreHolder ps.single),
    ("minecraft:time", fun ps => .time ((ps.integer? "min").getD 0))]

/-- The kind of an id with properties. -/
def Kind.ofId (id : Text) (ps : Properties) : Kind :=
  if wordIds.contains id then .word
  else if resourceIds.contains id then .resource
  else match plainKinds.lookup id, propertyKinds.lookup id with
    | some kind, _ => kind
    | none, some kind => kind ps
    | none, none => .unknown id

/-- Is the kind one with an id of its own? -/
def Kind.isKnown : Kind → Bool
  | .unknown _ => false
  | _ => true

/-! ### Reading -/

/-- The reader of a string type. -/
def stringScan (type : Text) : Scan Value := do
  if type == "greedy" then return .raw (← greedy)
  else if type == "phrase" then return .string (← phraseOf .string)
  else return .string (← wordOf .word)

/-- The reader of a kind. -/
def Kind.scan : Kind → Scan Value
  | .bool => return .bool (← boolean)
  | .integer bounds => return .integer (← Argument.integer .integer 32 bounds)
  | .long bounds => return .long (← Argument.integer .long 64 bounds)
  | .float bounds => return .float (← decimal .float .single bounds)
  | .double bounds => return .double (← decimal .double .double bounds)
  | .string type => stringScan type
  | .word => return .string (← wordOf .word)
  | .objective => return .objective (← wordOf .objective)
  | .criterion => return .raw (← chunkOf .value)
  | .operation => return .operation (← Argument.operation)
  | .swizzle => return .swizzle (← Argument.swizzle)
  | .anchor => return .anchor (← Argument.anchor)
  | .message => return .raw (← greedy)
  | .angle => return .angle (← Argument.angle)
  | .range decimals => return .range (← Argument.range decimals)
  | .coordinates shape => return .coordinates (← Argument.coordinates shape)
  | .time least => return .time (← Argument.time least)
  | .resource => return .resource (← Argument.resource)
  | .resourceOrTag => return .ref (← resourceRef)
  | .function => return .function (← resourceRef)
  | .entity single playersOnly => return .entity (← Argument.entity single playersOnly)
  | .scoreHolder single => return .scoreHolder (← Argument.scoreHolder single)
  | .uuid => return .uuid (← Argument.uuid)
  | .nbtCompound => return .nbt (.compound (← Argument.nbtCompound))
  | .nbtTag => return .nbt (← Argument.nbtTag)
  | .nbtPath => return .nbtPath (← Argument.nbtPath)
  | .component => return .component (← Argument.component)
  | .block allowTag => return .block (← Argument.block allowTag)
  | .item allowTag => return .item (← Argument.item allowTag)
  | .particle => return .particle (← Argument.particle)
  | .unknown _ => return .raw (← chunkOf .value)

/-- A cause and the position in the input where it was noticed. -/
structure ParseError where
  cause : Cause
  offset : Nat
deriving DecidableEq, Repr

/-- The value at the front of an input with the length of its text. -/
def Kind.parse (kind : Kind) (input : Text) : Except ParseError (Value × Nat) :=
  match kind.scan input with
  | .ok (v, rest) => .ok (v, input.length - rest.length)
  | .error failure => .error ⟨failure.cause, input.length - failure.rest.length⟩

end DatapackDebug.Argument
