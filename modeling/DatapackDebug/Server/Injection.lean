import DatapackDebug.Generate.Config

namespace DatapackDebug

/-!
# Injecting commands

Commands are executed by a column of command blocks: an impulse block at the bottom, and above it
chain blocks, so that all are executed in order in one tick.  The name of a block appears in the
log with the output of its command.

* `injectionLines` — the console commands that build such a column;
* `setupLines` — the console commands that prepare a server for it.
-/

/-- A command, and the name of the block that executes it. -/
structure ServerCommand where
  name : Text
  command : Text
deriving DecidableEq, Repr

/-- A command between double quotes. -/
def escapeCommand (t : Text) : Text :=
  t.flatMap fun (b : UInt8) => if b == '\\' || b == '"' then [0x5c, b] else [b]

/-- A name in a JSON string between single quotes. -/
def escapeName (t : Text) : Text :=
  t.flatMap fun (b : UInt8) =>
    if b == '\\' then "\\\\\\\\"
    else if b == '"' then "\\\\\""
    else if b == '\'' then "\\'"
    else [b]

/-- The console command that places the block of a command. -/
def placeBlock (p : BlockPos) (block : Text) (c : ServerCommand) : Text :=
  "setblock " ++ p.text ++ " " ++ block ++ "[facing=up]\x7bauto:1b,CustomName:'\x7b\"text\":\"" ++
    escapeName c.name ++ "\"\x7d',Command:\"" ++ escapeCommand c.command ++ "\"\x7d"

/-- The blocks of commands from a height on, the topmost first. -/
def placeBlocks (bottom : BlockPos) (height : Nat) : List ServerCommand → List Text
  | [] => []
  | c :: cs =>
    placeBlocks bottom (height + 1) cs ++
      [placeBlock (bottom.above height)
        (if height == 0 then "command_block" else "chain_command_block") c]

/-- The console commands that inject commands at a position: the column is cleared, and the impulse
    block, which starts the chain, is placed last. -/
def injectionLines (p : BlockPos) (commands : List ServerCommand) : List Text :=
  if commands.isEmpty then []
  else
    ("fill " ++ p.text ++ " " ++ (p.above (commands.length - 1)).text ++ " air") ::
      placeBlocks p 0 commands

/-- The console commands that prepare a server. -/
def setupLines (p : BlockPos) : List Text :=
  ["gamerule commandBlockOutput true", "gamerule logAdminCommands true",
    "forceload add " ++ Text.ofInt p.x ++ " " ++ Text.ofInt p.z]

end DatapackDebug
