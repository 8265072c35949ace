import DatapackDebug.Grammar.Basic

namespace DatapackDebug

/-!
# The built-in commands

The commands that the debugger knows unless it is given a grammar of its own.

* `lit`, `arg` — a literal and an argument; `lit!` and `arg!` also end a command;
* `CommandTree.thenExecute` — go on with a subcommand of `execute`;
* `CommandTree.builtin`, `Grammar.builtin` — the tree and its grammar.

Commands and their parts are in alphabetical order, as servers list them; parts that several
commands share are definitions of their own.
-/

namespace Builtin

/-- An id of a kind of argument with its properties. -/
abbrev ArgumentType := Text × Argument.Properties

/-- A literal. -/
def lit (name : Text) (children : List CommandTree) : CommandTree :=
  .node { name, type := .literal } children

/-- A literal that may end a command. -/
def lit! (name : Text) (children : List CommandTree) : CommandTree :=
  .node { name, type := .literal, executable := true } children

/-- An argument. -/
def arg (name : Text) (type : ArgumentType) (children : List CommandTree) : CommandTree :=
  .node { name, type := .argument, argumentId := type.1, properties := type.2 } children

/-- An argument that may end a command. -/
def arg! (name : Text) (type : ArgumentType) (children : List CommandTree) : CommandTree :=
  .node { name, type := .argument, argumentId := type.1, properties := type.2, executable := true }
    children

/-- The node, followed by what follows the command of a name. -/
def redirected (name : Text) : CommandTree → CommandTree
  | .node head children => .node { head with redirect := some [name] } children

/-- The node, followed by a subcommand of `execute`. -/
def thenExecute (t : CommandTree) : CommandTree := redirected "execute" t

/-! ### Types of arguments -/

/-- A type without properties. -/
def minecraft (id : Text) : ArgumentType := ("minecraft:" ++ id, [])

/-- Entities or players, one or several. -/
def selection (type amount : Text) : ArgumentType :=
  ("minecraft:entity", [("type", .string type), ("amount", .string amount)])

def oneEntity : ArgumentType := selection "entities" "single"

def entities : ArgumentType := selection "entities" "multiple"

def players : ArgumentType := selection "players" "multiple"

/-- One or several holders of scores. -/
def scoreHolder (amount : Text) : ArgumentType :=
  ("minecraft:score_holder", [("amount", .string amount)])

def oneHolder : ArgumentType := scoreHolder "single"

def holders : ArgumentType := scoreHolder "multiple"

/-- A string of a type. -/
def string (type : Text) : ArgumentType := ("brigadier:string", [("type", .string type)])

/-- An integer with the bounds that are given. -/
def integer (bounds : List (Text × Text)) : ArgumentType :=
  ("brigadier:integer", bounds.map fun (bound, numeral) => (bound, .number numeral))

/-- A resource of a registry, or with `_or_tag` also a tag. -/
def registered (id registry : Text) : ArgumentType :=
  ("minecraft:" ++ id, [("registry", .string ("minecraft:" ++ registry))])

def boolean : ArgumentType := ("brigadier:bool", [])

def double : ArgumentType := ("brigadier:double", [])

def duration : ArgumentType := ("minecraft:time", [("min", .number "0")])

def blockPos : ArgumentType := minecraft "block_pos"

def vec3 : ArgumentType := minecraft "vec3"

def nbtPath : ArgumentType := minecraft "nbt_path"

def compound : ArgumentType := minecraft "nbt_compound_tag"

def location : ArgumentType := minecraft "resource_location"

def objective : ArgumentType := minecraft "objective"

/-! ### Data -/

/-- A holder of data: a block, an entity or a storage; each is followed by the same. -/
def holder (make : Text → ArgumentType → List CommandTree → CommandTree) (block other : Text)
    (children : List CommandTree) : List CommandTree :=
  [lit "block" [make block blockPos children],
    lit "entity" [make other oneEntity children],
    lit "storage" [make other location children]]

/-- The holder of data that a command reads or changes. -/
def target (children : List CommandTree) : List CommandTree :=
  holder arg "targetPos" "target" children

/-- Where the new value of an element comes from. -/
def newValue : List CommandTree :=
  [lit "from" (holder arg! "sourcePos" "source" [arg! "sourcePath" nbtPath []]),
    lit "value" [arg! "value" (minecraft "nbt_tag") []]]

/-- The ways to change an element. -/
def modifications : List CommandTree :=
  [lit "append" newValue,
    lit "insert" [arg "index" (integer []) newValue],
    lit "merge" newValue,
    lit "prepend" newValue,
    lit "set" newValue]

def data : CommandTree :=
  lit "data"
    [lit "get"
      (holder arg! "targetPos" "target" [arg! "path" nbtPath [arg! "scale" double []]]),
    lit "merge" (target [arg! "nbt" compound []]),
    lit "modify" (target [arg "targetPath" nbtPath modifications]),
    lit "remove" (target [arg! "path" nbtPath []])]

/-! ### Subcommands of execute -/

/-- The comparison of a score with another. -/
def comparison (sign : Text) : CommandTree :=
  lit sign [arg "source" oneHolder [thenExecute (arg! "sourceObjective" objective [])]]

/-- What can be tested by `if` and `unless`. -/
def conditions : List CommandTree :=
  [lit "biome"
      [arg "pos" blockPos
        [thenExecute (arg! "biome" (registered "resource_or_tag" "worldgen/biome") [])]],
    lit "block"
      [arg "pos" blockPos [thenExecute (arg! "block" (minecraft "block_predicate") [])]],
    lit "blocks"
      [arg "start" blockPos
        [arg "end" blockPos
          [arg "destination" blockPos
            [thenExecute (lit! "all" []), thenExecute (lit! "masked" [])]]]],
    lit "data" (holder arg "sourcePos" "source" [thenExecute (arg! "path" nbtPath [])]),
    lit "dimension" [thenExecute (arg! "dimension" (minecraft "dimension") [])],
    lit "entity" [thenExecute (arg! "entities" entities [])],
    lit "function" [thenExecute (arg! "name" (minecraft "function") [])],
    lit "loaded" [thenExecute (arg! "pos" blockPos [])],
    lit "predicate" [thenExecute (arg! "predicate" location [])],
    lit "score"
      [arg "target" oneHolder
        [arg "targetObjective" objective
          [comparison "<", comparison "<=", comparison "=", comparison ">", comparison ">=",
            lit "matches" [thenExecute (arg! "range" (minecraft "int_range") [])]]]]]

/-- Stored as a number of a type, scaled. -/
def scaled (type : Text) : CommandTree := lit type [thenExecute (arg "scale" double [])]

/-- An element of a holder of data. -/
def element : List CommandTree :=
  [arg "path" nbtPath
    [scaled "byte", scaled "double", scaled "float", scaled "int", scaled "long", scaled "short"]]

/-- Where `store` can put a value. -/
def destinations : List CommandTree :=
  [lit "block" [arg "targetPos" blockPos element],
    lit "bossbar"
      [arg "id" location [thenExecute (lit "max" []), thenExecute (lit "value" [])]],
    lit "entity" [arg "target" oneEntity element],
    lit "score" [arg "targets" holders [thenExecute (arg "objective" objective [])]],
    lit "storage" [arg "target" location element]]

/-- The relations that `on` follows. -/
def relations : List Text :=
  ["attacker", "controller", "leasher", "origin", "owner", "passengers", "target", "vehicle"]

/-- The entities that a subcommand takes its context from. -/
def asTargets (name : Text) : CommandTree := lit name [thenExecute (arg "targets" entities [])]

def execute : CommandTree :=
  lit "execute"
    [lit "align" [thenExecute (arg "axes" (minecraft "swizzle") [])],
    lit "anchored" [thenExecute (arg "anchor" (minecraft "entity_anchor") [])],
    asTargets "as",
    asTargets "at",
    lit "facing"
      [lit "entity"
        [arg "targets" entities [thenExecute (arg "anchor" (minecraft "entity_anchor") [])]],
      thenExecute (arg "pos" vec3 [])],
    lit "if" conditions,
    lit "in" [thenExecute (arg "dimension" (minecraft "dimension") [])],
    lit "on" (relations.map fun relation => thenExecute (lit relation [])),
    lit "positioned"
      [asTargets "as",
      lit "over" [thenExecute (arg "heightmap" (minecraft "heightmap") [])],
      thenExecute (arg "pos" vec3 [])],
    lit "rotated" [asTargets "as", thenExecute (arg "rot" (minecraft "rotation") [])],
    lit "run" [],
    lit "store" [lit "result" destinations, lit "success" destinations],
    lit "summon" [thenExecute (arg "entity" (registered "resource" "entity_type") [])],
    lit "unless" conditions]

/-! ### Other commands -/

def datapack : CommandTree :=
  lit "datapack"
    [lit "disable" [arg! "name" (string "phrase") []],
    lit "enable"
      [arg! "name" (string "phrase")
        [lit "after" [arg! "existing" (string "phrase") []],
        lit "before" [arg! "existing" (string "phrase") []],
        lit! "first" [],
        lit! "last" []]],
    lit! "list" [lit! "available" [], lit! "enabled" []]]

def effect : CommandTree :=
  lit "effect"
    [lit! "clear"
      [arg! "targets" entities [arg! "effect" (registered "resource" "mob_effect") []]],
    lit "give"
      [arg "targets" entities
        [arg! "effect" (registered "resource" "mob_effect")
          [arg! "seconds" (integer [("min", "1"), ("max", "1000000")])
            [arg! "amplifier" (integer [("min", "0"), ("max", "255")])
              [arg! "hideParticles" boolean []]],
          lit! "infinite" []]]]]

def fill : CommandTree :=
  lit "fill"
    [arg "from" blockPos
      [arg "to" blockPos
        [arg! "block" (minecraft "block_state")
          [lit! "destroy" [], lit! "hollow" [], lit! "keep" [], lit! "outline" [],
          lit! "replace" [arg! "filter" (minecraft "block_predicate") []]]]]]

/-- An area of columns, given by one or two corners. -/
def columns : CommandTree :=
  arg! "from" (minecraft "column_pos") [arg! "to" (minecraft "column_pos") []]

def forceload : CommandTree :=
  lit "forceload"
    [lit "add" [columns],
    lit! "query" [arg! "pos" (minecraft "column_pos") []],
    lit "remove" [lit! "all" [], columns]]

def function : CommandTree :=
  lit "function"
    [arg! "name" (minecraft "function")
      [arg! "arguments" compound [],
      lit "with" (holder arg! "sourcePos" "source" [arg! "path" nbtPath []])]]

/-- A rule of the game with a value of a type. -/
def rule (name : Text) (type : ArgumentType) : CommandTree := lit! name [arg! "value" type []]

def gamerule : CommandTree :=
  lit "gamerule"
    [rule "commandBlockOutput" boolean,
    rule "doDaylightCycle" boolean,
    rule "logAdminCommands" boolean,
    rule "sendCommandFeedback" boolean,
    rule "maxCommandChainLength" (integer [])]

def give : CommandTree :=
  lit "give"
    [arg "targets" players
      [arg! "item" (minecraft "item_stack")
        [arg! "count" (integer [("min", "1"), ("max", "2147483647")]) []]]]

def schedule : CommandTree :=
  lit "schedule"
    [lit "clear" [arg! "function" (string "greedy") []],
    lit "function"
      [arg "function" (minecraft "function")
        [arg! "time" duration [lit! "append" [], lit! "replace" []]]]]

def objectives : CommandTree :=
  lit "objectives"
    [lit "add"
      [arg "objective" (string "word")
        [arg! "criteria" (minecraft "objective_criteria")
          [arg! "displayName" (minecraft "component") []]]],
    lit! "list" [],
    lit "modify"
      [arg "objective" objective
        [lit "displayname" [arg! "displayName" (minecraft "component") []],
        lit "rendertype" [lit! "hearts" [], lit! "integer" []]]],
    lit "remove" [arg! "objective" objective []],
    lit "setdisplay"
      [arg! "slot" (minecraft "scoreboard_slot") [arg! "objective" objective []]]]

/-- The scores of some holders, changed by a number. -/
def changedBy (name : Text) (type : ArgumentType) : CommandTree :=
  lit name [arg "targets" holders [arg "objective" objective [arg! "score" type []]]]

def playerScores : CommandTree :=
  lit "players"
    [changedBy "add" (integer [("min", "0")]),
    lit "enable" [arg "targets" holders [arg! "objective" objective []]],
    lit "get" [arg "target" oneHolder [arg! "objective" objective []]],
    lit! "list" [arg! "target" oneHolder []],
    lit "operation"
      [arg "targets" holders
        [arg "targetObjective" objective
          [arg "operation" (minecraft "operation")
            [arg "source" holders [arg! "sourceObjective" objective []]]]]],
    changedBy "remove" (integer [("min", "0")]),
    lit "reset" [arg! "targets" holders [arg! "objective" objective []]],
    changedBy "set" (integer [])]

def setblock : CommandTree :=
  lit "setblock"
    [arg "pos" blockPos
      [arg! "block" (minecraft "block_state")
        [lit! "destroy" [], lit! "keep" [], lit! "replace" []]]]

def summon : CommandTree :=
  lit "summon"
    [arg! "entity" (registered "resource" "entity_type")
      [arg! "pos" vec3 [arg! "nbt" compound []]]]

def tag : CommandTree :=
  lit "tag"
    [arg "targets" entities
      [lit "add" [arg! "name" (string "word") []],
      lit! "list" [],
      lit "remove" [arg! "name" (string "word") []]]]

def teleport : CommandTree :=
  lit "teleport"
    [arg! "destination" oneEntity [],
    arg! "location" vec3 [],
    arg "targets" entities
      [arg! "destination" oneEntity [],
      arg! "location" vec3
        [lit "facing"
          [lit "entity"
            [arg! "facingEntity" oneEntity [arg! "facingAnchor" (minecraft "entity_anchor") []]],
          arg! "facingLocation" vec3 []],
        arg! "rotation" (minecraft "rotation") []]]]

def time : CommandTree :=
  lit "time"
    [lit "add" [arg! "time" duration []],
    lit "query" [lit! "day" [], lit! "daytime" [], lit! "gametime" []],
    lit "set"
      [lit! "day" [], lit! "midnight" [], lit! "night" [], lit! "noon" [],
      arg! "time" duration []]]

end Builtin

open Builtin in
/-- The tree of the built-in commands. -/
def CommandTree.builtin : CommandTree :=
  .node { name := [], type := .root }
    [data, datapack, effect, execute, fill, forceload, function, gamerule, give,
    lit! "kill" [arg! "targets" entities []],
    lit! "reload" [],
    lit "say" [arg! "message" (minecraft "message") []],
    schedule,
    lit "scoreboard" [objectives, playerScores],
    setblock, summon, tag, teleport,
    lit "tellraw" [arg "targets" players [arg! "message" (minecraft "component") []]],
    time,
    redirected "teleport" (lit "tp" [])]

/-- The grammar of the built-in commands. -/
def Grammar.builtin : Grammar :=
  match Grammar.ofTree .builtin with
  | .ok g => g
  | .error _ => ⟨#[]⟩

end DatapackDebug
