import DatapackDebug.Adapter.Basic

namespace DatapackDebug

/-!
# Handling requests

* `stackWindow?` — the frames that a request for some of them means;
* `AdapterM.handle` — handle a request, and answer it;
* `AdapterM.handleEvent` — handle a report of the server;
* `AdapterM.handleLoss` — the server reports no more;
* `AdapterM.close` — the client is gone.
-/

/-- The first frame and the end of the frames that a request means, of `count` frames.  All that
    follow the first are meant if no number of levels is given.  There may be no such frames. -/
def stackWindow? (count : Nat) (startFrame levels : Int) : Option (Nat × Nat) :=
  let start := min startFrame count
  let sum := wrap64 (start + levels)
  let stop := if 0 < levels && sum < count then sum else count
  if 0 ≤ start && start ≤ stop then some (start.toNat, stop.toNat) else none

namespace AdapterM

/-! ### Launching -/

/-- The arguments of a launch, which must be there. -/
def launchArguments : Option Json → Except LaunchArgumentsError LaunchArguments
  | none => LaunchArguments.parse []
  | some v => LaunchArguments.ofValue v

/-- The grammar of a file, or the built-in one if no file is named. -/
def readGrammar (path : Text) : AdapterM (Except Config.GrammarFileError Grammar) := do
  if path.isEmpty then return .ok .builtin
  return Config.grammarOf path (← ask (.read path))

/-- The grammar of the settings; it is read once. -/
def loadGrammar : AdapterM (Except Config.GrammarFileError Grammar) := do
  let a ← get
  match a.grammar with
  | some g => return .ok g
  | none =>
    let grammar ← readGrammar a.config.grammarFile
    if let .ok g := grammar then set { a with grammar := some g }
    return grammar

/-- The directory of the world. -/
def worldDir (a : LaunchArguments) : Text :=
  if a.world.isEmpty then Path.join [a.serverDir, "world"] else a.world

/-- The settings of the generator, with the namespace of the arguments if one is given. -/
def packConfig (c : Config) (a : LaunchArguments) : PackConfig :=
  if a.ns.isEmpty then c.pack else { c.pack with ns := a.ns }

/-- Reach a server, and install a generated datapack there. -/
def install (r : ClientRequest) (a : LaunchArguments) (g : Grammar) : AdapterM Unit := do
  match ← ask (.openConnection a) with
  | .error e => fail r e.message
  | .ok _ =>
    let output := Path.join [worldDir a, "datapacks", ← ask .newPackName]
    let config := packConfig (← get).config a
    let (result, s) ← runSession { grammar := g } (SessionM.launchWith
      { datapack := a.datapack, function := a.function, output, config })
    match result with
    | .error e =>
      let _ ← runSession s SessionM.terminate
      ask (.session .closeConnection)
      fail r e.clientMessage
    | .ok _ =>
      modify fun adapter => { adapter with session := some s }
      ask (.watch (Datapack.dataDir a.datapack))
      send (.event (.output "console"
        ("Installed debug datapack " ++ Path.base output ++ " for " ++ a.function ++ "\n")))
      succeed r .empty
      send (.event .initialized)

/-- Launch the session. -/
def launch (r : ClientRequest) (given : Option Json) : AdapterM Unit := do
  if (← get).session.isSome then fail r SessionError.alreadyLaunched.message
  else match launchArguments given with
    | .error e => fail r e.message
    | .ok a =>
      match ← loadGrammar with
      | .error e => fail r e.message
      | .ok g => withProgress r "Generating debug datapack" (install r a g)

/-! ### Requests to the session -/

/-- Set the breakpoints of a source. -/
def setBreakpoints (r : ClientRequest) (source : Text) (lines : List Int)
    (sourceModified : Bool) : AdapterM Unit := do
  match (← get).session with
  | none => fail r SessionError.notLaunched.message
  | some s =>
    let result ← withProgress r "Updating breakpoints" <| inSession s do
      if sourceModified then SessionM.sourceModified
      SessionM.setBreakpoints source lines
    match result with
    | .error e => fail r e.clientMessage
    | .ok (_, some e) => fail r e.clientMessage
    | .ok (bs, none) => succeed r (.breakpoints source bs)

/-- Answer with some of the frames.  If there are none such, the adapter stops. -/
def answerFrames (r : ClientRequest) (startFrame levels : Int) (frames : List Frame) :
    AdapterM Unit := do
  match stackWindow? frames.length startFrame levels with
  | none => modify fun a => { a with broken := true }
  | some (start, stop) =>
    succeed r (.stackFrames ((frames.take stop).drop start) frames.length)

/-- End the session, if there is one, and do not look for changes any more. -/
def terminate : AdapterM (Except SessionError Unit) := do
  ask .unwatch
  match (← get).session with
  | none => return .ok ()
  | some s => inSession s SessionM.terminate

/-- Handle a request, and answer it. -/
def handle (r : ClientRequest) : AdapterM Unit := do
  match r.what with
  | .introduce supportsProgress =>
    modify fun a => { a with supportsProgress }
    succeed r .capabilities
  | .launch given => launch r given
  | .setBreakpoints source lines sourceModified => setBreakpoints r source lines sourceModified
  | .configurationDone => answerBy r SessionM.configurationDone fun _ => succeed r .empty
  | .threads => succeed r .threads
  | .continue => answerBy r (SessionM.resume none) fun _ => succeed r .continued
  | .next => answerBy r (SessionM.resume (some .over)) fun _ => succeed r .empty
  | .stepIn => answerBy r (SessionM.resume (some .into)) fun _ => succeed r .empty
  | .stepOut => answerBy r (SessionM.resume (some .out)) fun _ => succeed r .empty
  | .stackTrace startFrame levels =>
    answerBy r SessionM.stackTrace (answerFrames r startFrame levels)
  | .scopes frame => answerBy r (SessionM.scopes frame) fun ss => succeed r (.scopes ss)
  | .variables reference =>
    answerBy r (SessionM.variablesAt reference) fun vs => succeed r (.variables vs)
  | .terminate =>
    match ← terminate with
    | .error e => fail r e.clientMessage
    | .ok _ => succeed r .empty
  | .disconnect =>
    let _ ← terminate
    succeed r .empty
  | .unsupported => fail r (r.command ++ " is not yet supported")

/-- Answer a request that was cancelled before its turn. -/
def refuse (r : ClientRequest) : AdapterM Unit := fail r SessionError.cancelled.message

/-! ### Between requests -/

/-- Handle a report of the server. -/
def handleEvent (e : LogEvent) : AdapterM Unit := do
  if let some s := (← get).session then
    if let .error e ← inSession s (SessionM.handleEvent e) then
      send (.event (.output "stderr" (e.message ++ "\n")))

/-- The server reports no more: the session is over. -/
def handleLoss : AdapterM Unit := do
  modify fun a => { a with lost := true }
  if let some s := (← get).session then
    let _ ← inSession s SessionM.terminate

/-- A source has changed. -/
def handleChange : AdapterM Unit := do
  if let some s := (← get).session then
    let _ ← inSession s SessionM.sourceModified

/-- The client is gone. -/
def close : AdapterM Unit := do
  if let some s := (← get).session then
    let _ ← inSession s SessionM.terminate
  ask .unwatch

end AdapterM

end DatapackDebug
