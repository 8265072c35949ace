import DatapackDebug.Argument.Word
import DatapackDebug.Generate.Name

namespace DatapackDebug

/-!
# Instructions of generated functions

A generated function is a list of instructions: the commands of the source and the commands that
keep account of calls, stops and returns.

* `Instruction` — what a line does;
* `Instruction.text` — the command that does it.

The frame of a call is an invisible entity with the tag `Tag.functionCall`, the depth of the call as
a score, and the name and place of the caller as its name.
-/

/-- The objectives of the debugger, and those of the source. -/
inductive Objective where
  | global
  | depth
  | anchor
  | functionId
  | valid
  | named (name : Text)
deriving DecidableEq, Repr

/-- The name of an objective. -/
def Objective.text (ns : Text) : Objective → Text
  | .global => ns ++ "_global"
  | .depth => ns ++ "_depth"
  | .anchor => ns ++ "_anchor"
  | .functionId => ns ++ "_function_id"
  | .valid => ns ++ "_valid"
  | .named name => name

/-- The values that a test of a score accepts. -/
inductive ScoreRange where
  | exactly (n : Int)
  | atMost (n : Int)
deriving DecidableEq, Repr

/-- The range as commands write it. -/
def ScoreRange.text : ScoreRange → Text
  | .exactly n => Text.ofInt n
  | .atMost n => ".." ++ Text.ofInt n

/-- A selection of entities by tags. -/
structure Selection where
  /-- only the invisible entities that the debugger summons -/
  clouds : Bool := true
  tags : List Tag
  /-- only entities with such an anchor -/
  anchor : Option ScoreRange := none
  /-- only one entity -/
  one : Bool := false
deriving DecidableEq, Repr

/-- The conditions of a selection. -/
def Selection.conditions (ns : Text) (s : Selection) : List Text :=
  (if s.clouds then [Text.ofString "type=area_effect_cloud"] else []) ++
    s.tags.map (fun tag => Text.ofString "tag=" ++ tag.text ns) ++
    (s.anchor.map fun r =>
      "scores=\x7b" ++ Objective.anchor.text ns ++ "=" ++ r.text ++ "\x7d").toList ++
    (if s.one then [Text.ofString "limit=1"] else [])

/-- Entities. -/
inductive Target where
  /-- the entity that executes the command -/
  | self
  | select (s : Selection)
deriving DecidableEq, Repr

/-- The target as commands write it. -/
def Target.text (ns : Text) : Target → Text
  | .self => "@s"
  | .select s => "@e[" ++ Text.join "," (s.conditions ns) ++ "]"

/-- Who holds a score. -/
inductive Holder where
  | variable (name : Text)
  | entities (t : Target)
deriving DecidableEq, Repr

/-- The holder as commands write it. -/
def Holder.text (ns : Text) : Holder → Text
  | .variable name => name
  | .entities t => t.text ns

/-- A score. -/
structure Score where
  holder : Holder
  objective : Objective
deriving DecidableEq, Repr

/-- The score as commands write it. -/
def Score.text (ns : Text) (s : Score) : Text := s.holder.text ns ++ " " ++ s.objective.text ns

namespace Score

/-- Is the program stopped? -/
def stopped : Score := ⟨.variable "break", .global⟩

/-- The anchor of the next call: one is `eyes`, zero is `feet`. -/
def anchor : Score := ⟨.variable "anchor", .global⟩

/-- Was the frame that returns there at a stop? -/
def returningSuspended : Score := ⟨.variable "returning_suspended", .global⟩

/-- The number of the position to resume at. -/
def resumePosition : Score := ⟨.variable "resume_position", .global⟩

/-- The depth of the call that is executed. -/
def depth : Score := ⟨.variable "current", .depth⟩

/-- The number of the function to launch. -/
def launch : Score := ⟨.variable "launch", .functionId⟩

/-- Has the server loaded the function of this holder? -/
def valid (holder : Text) : Score := ⟨.variable holder, .valid⟩

/-- The number of the function of this holder. -/
def functionId (holder : Text) : Score := ⟨.variable holder, .functionId⟩

end Score

/-- A subcommand of `execute`. -/
inductive Modifier where
  | ifScore (s : Score) (r : ScoreRange)
  | unlessScore (s : Score) (r : ScoreRange)
  /-- only for entities whose depth is the current one -/
  | ifAtDepth
  | ifEntity (t : Target)
  | unlessEntity (t : Target)
  | as (t : Target)
  | at (t : Target)
  | rotatedAs (t : Target)
  | anchored (a : Argument.Anchor)
  /-- at the position of the log -/
  | atLog
  /-- a condition that is given as text -/
  | given (condition : Text)
deriving DecidableEq, Repr

/-- The subcommand as commands write it. -/
def Modifier.text (c : PackConfig) : Modifier → Text
  | .ifScore s r => "if score " ++ s.text c.ns ++ " matches " ++ r.text
  | .unlessScore s r => "unless score " ++ s.text c.ns ++ " matches " ++ r.text
  | .ifAtDepth =>
    "if score " ++ Score.text c.ns ⟨.entities .self, .depth⟩ ++ " = " ++ Score.depth.text c.ns
  | .ifEntity t => "if entity " ++ t.text c.ns
  | .unlessEntity t => "unless entity " ++ t.text c.ns
  | .as t => "as " ++ t.text c.ns
  | .at t => "at " ++ t.text c.ns
  | .rotatedAs t => "rotated as " ++ t.text c.ns
  | .anchored a => "anchored " ++ a.text
  | .atLog => "positioned " ++ c.logPosition.text
  | .given condition => condition

/-- Where a command block is put that writes to the log. -/
inductive LogBlock where
  /-- at the position of the log, alone -/
  | alone
  /-- at the bottom of a column of blocks -/
  | first
  /-- in a column, at a height above the bottom -/
  | chain (height : Nat)
deriving DecidableEq, Repr

/-- The position and the block as commands write them. -/
def LogBlock.text (c : PackConfig) : LogBlock → Text
  | .alone => c.logPosition.text ++ " command_block"
  | .first => "~ ~ ~ command_block[facing=up]"
  | .chain height => "~ ~" ++ Text.ofNat height ++ " ~ chain_command_block[facing=up]"

/-- A condition for the lines of a text. -/
structure LineCondition where
  modifiers : List Modifier
  /-- a line that begins with `execute` goes on with its own subcommands -/
  joins : Bool
deriving Repr

/-- Subcommands as they stand in front of others. -/
def Modifier.front (c : PackConfig) (ms : List Modifier) : Text :=
  "execute " ++ ms.flatMap fun m => m.text c ++ [Text.blank]

/-- A line under a condition. -/
def LineCondition.apply (c : PackConfig) (condition : LineCondition) (line : Text) : Text :=
  let own := if condition.joins then Text.dropStart? "execute " line else none
  Modifier.front c condition.modifiers ++ own.getD ("run " ++ line)

/-- What a line of a generated function does. -/
inductive Instruction where
  /-- run a generated function -/
  | function (u : UnitName)
  /-- run a generated function in the next tick -/
  | schedule (u : UnitName)
  | setScore (s : Score) (n : Int)
  | addScore (s : Score) (n : Nat)
  | removeScore (s : Score) (n : Nat)
  /-- set the first score to the value of the second -/
  | copyScore (s t : Score)
  /-- write a score to the log -/
  | showScore (s : Score)
  | addObjective (o : Objective)
  | removeObjective (o : Objective)
  /-- summon an invisible entity -/
  | summon (tags : List Tag)
  /-- move entities to where the command is executed -/
  | moveHere (t : Target)
  | addTag (t : Target) (tag : Tag)
  | removeTag (t : Target) (tag : Tag)
  | kill (t : Target)
  /-- name a frame after a place in a function -/
  | nameFrame (t : Target) (f : ResourceName) (line column : Nat)
  /-- keep the position of the log loaded -/
  | loadLog
  | unloadLog
  /-- clear the column of command blocks at the position of the log, up to a height -/
  | clearColumn (height : Nat)
  /-- clear the position of the log -/
  | clearLog
  /-- put a command block with a name -/
  | logBlock (block : LogBlock) (name : Text) (i : Instruction)
  /-- tell all players that a function could not be loaded -/
  | tellInvalid (f : ResourceName)
  /-- a command of the source -/
  | source (text : Text)
  /-- an instruction behind a beginning of a command of the source -/
  | behind (text : Text) (i : Instruction)
  | execute (ms : List Modifier) (i : Instruction)
  /-- an instruction of which each line is executed under a condition -/
  | eachLine (c : LineCondition) (i : Instruction)
deriving Repr

namespace Instruction

/-- The NBT of an invisible entity that stays. -/
def cloud (ns : Text) (tags : List Tag) : Text :=
  "\x7bAge:-2147483648,Duration:-1,WaitTime:-2147483648,Tags:[" ++
    Text.join "," (tags.map fun tag => "\"" ++ tag.text ns ++ "\"") ++ "]\x7d"

/-- A name that is shown as it stands. -/
def plainName (name : Text) : Text := "'\x7b\"text\":\"" ++ name ++ "\"\x7d'"

/-- The command of an instruction. -/
def text (c : PackConfig) : Instruction → Text
  | .function u => "function " ++ u.text c.ns
  | .schedule u => "schedule function " ++ u.text c.ns ++ " 1t append"
  | .setScore s n => "scoreboard players set " ++ s.text c.ns ++ " " ++ Text.ofInt n
  | .addScore s n => "scoreboard players add " ++ s.text c.ns ++ " " ++ Text.ofNat n
  | .removeScore s n => "scoreboard players remove " ++ s.text c.ns ++ " " ++ Text.ofNat n
  | .copyScore s t => "scoreboard players operation " ++ s.text c.ns ++ " = " ++ t.text c.ns
  | .showScore s => "scoreboard players get " ++ s.text c.ns
  | .addObjective o => "scoreboard objectives add " ++ o.text c.ns ++ " dummy"
  | .removeObjective o => "scoreboard objectives remove " ++ o.text c.ns
  | .summon tags => "summon area_effect_cloud ~ ~ ~ " ++ cloud c.ns tags
  | .moveHere t => "tp " ++ t.text c.ns ++ " ~ ~ ~ ~ ~"
  | .addTag t tag => "tag " ++ t.text c.ns ++ " add " ++ tag.text c.ns
  | .removeTag t tag => "tag " ++ t.text c.ns ++ " remove " ++ tag.text c.ns
  | .kill t => "kill " ++ t.text c.ns
  | .nameFrame t f line column =>
    "data modify entity " ++ t.text c.ns ++ " CustomName set value " ++
      plainName (f.text ++ ":" ++ Text.ofNat line ++ ":" ++ Text.ofNat column)
  | .loadLog => "forceload add " ++ columnText
  | .unloadLog => "forceload remove " ++ columnText
  | .clearColumn height =>
    "fill " ++ c.logPosition.text ++ " " ++ (c.logPosition.above height).text ++ " air"
  | .clearLog => "setblock " ++ c.logPosition.text ++ " air"
  | .logBlock block name i =>
    "setblock " ++ block.text c ++ "\x7bauto:1b,CustomName:" ++ plainName name ++ ",Command:\"" ++
      i.text c ++ "\"\x7d"
  | .tellInvalid f =>
    "tellraw @a [\x7b\"text\":\"[" ++ c.ns ++
      "] \",\"color\":\"red\"\x7d,\x7b\"text\":\"Function " ++
      f.text ++ " could not be loaded, see the server log for the invalid command\"\x7d]"
  | .source t => t
  | .behind t i => t ++ i.text c
  | .execute ms i => Modifier.front c ms ++ "run " ++ i.text c
  | .eachLine condition i =>
    Text.join "\n" ((Text.splitOn '\n' (i.text c)).map (condition.apply c))
where
  columnText : Text := Text.ofInt c.logPosition.x ++ " " ++ Text.ofInt c.logPosition.z

/-- The instruction under a further condition. -/
def under (m : Modifier) : Instruction → Instruction
  | .execute ms i => .execute (m :: ms) i
  | i => .execute [m] i

end Instruction

end DatapackDebug
