import DatapackDebug.Json.Shape

namespace DatapackDebug

/-!
# Arguments of a launch

What the client tells when it starts a session: the datapack and its function, the server's
directory, and how the server is reached.

* `LaunchArguments.parse` — the arguments of a JSON document.
-/

/-- The arguments of a launch.  A field that was not given is empty. -/
structure LaunchArguments where
  datapack : Text
  function : Text
  serverDir : Text
  /-- the directory of the world, if it is not `world` in the server's directory -/
  world : Text
  /-- the command that starts a server -/
  serverCommand : List Text
  /-- the log of a server that is running already -/
  logFile : Text
  /-- the console of a server that is running already -/
  console : Text
  ns : Text
  noDebug : Bool
deriving DecidableEq, Repr

/-- Why the arguments of a launch are refused. -/
inductive LaunchArgumentsError where
  | malformed (e : Json.SyntaxError)
  | mistyped (m : Json.Mismatch)
  | noDatapack
  | noFunction
  | noWorld
  | noServer
deriving DecidableEq, Repr

/-- The wording of the error. -/
def LaunchArgumentsError.message (e : LaunchArgumentsError) : Text :=
  "Invalid launch arguments: " ++ match e with
    | .malformed e => e.message "unexpected end of JSON input"
    | .mistyped m => m.message
    | .noDatapack => "datapack is required"
    | .noFunction => "function is required"
    | .noWorld => "serverDir or world is required"
    | .noServer => "serverCommand or logFile and console are required"

namespace LaunchArguments

/-- The shape of the arguments. -/
def shape : Json.Shape :=
  .record "protocol.LaunchArguments"
    [("datapack", .text), ("function", .text), ("serverDir", .text), ("world", .text),
      ("serverCommand", .list .text), ("logFile", .text), ("console", .text),
      ("namespace", .text), ("noDebug", .bool)]

/-- The arguments in a slot of the right shape. -/
def ofSlot (s : Json.Slot) : LaunchArguments :=
  { datapack := s.textField "datapack"
    function := s.textField "function"
    serverDir := s.textField "serverDir"
    world := s.textField "world"
    serverCommand := (s.itemsField "serverCommand").map (·.toText)
    logFile := s.textField "logFile"
    console := s.textField "console"
    ns := s.textField "namespace"
    noDebug := s.boolField "noDebug" }

/-- The first argument that is missing. -/
def missing? (a : LaunchArguments) : Option LaunchArgumentsError :=
  if a.datapack.isEmpty then some .noDatapack
  else if a.function.isEmpty then some .noFunction
  else if a.serverDir.isEmpty && a.world.isEmpty then some .noWorld
  else if a.serverCommand.isEmpty && (a.logFile.isEmpty || a.console.isEmpty) then some .noServer
  else none

/-- The arguments of a value; `null` stands for no arguments. -/
def ofValue (v : Json) : Except LaunchArgumentsError LaunchArguments :=
  let fitted := Json.fit shape v
  match fitted.mismatch with
  | some m => .error (.mistyped m)
  | none =>
    let a := ofSlot fitted.slot
    match a.missing? with
    | some e => .error e
    | none => .ok a

/-- The arguments of a JSON document. -/
def parse (t : Text) : Except LaunchArgumentsError LaunchArguments :=
  match Json.parse t with
  | .error e => .error (.malformed e)
  | .ok v => ofValue v

end LaunchArguments

end DatapackDebug
