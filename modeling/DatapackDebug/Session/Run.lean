import DatapackDebug.Session.Query

namespace DatapackDebug

/-!
# The course of a session

* `SessionM.launchWith` — read the datapack, and install the generated one on the server;
* `SessionM.configurationDone` — the client has set its breakpoints: start the debugged function;
* `SessionM.setBreakpoints` — the breakpoints of a source;
* `SessionM.resume` — go on after a stop;
* `SessionM.handleEvent` — something that the server has reported;
* `SessionM.terminate` — leave the server as it was.
-/

/-! ### Checking breakpoints -/

/-- Why a breakpoint has no effect. -/
inductive BreakpointRefusal where
  | foreignSource
  | unknownFunction
  | outOfRange
  | noCommand
  | unparsable (e : CommandError)
deriving DecidableEq, Repr

/-- The wording of a refusal. -/
def BreakpointRefusal.message : BreakpointRefusal → Text
  | .foreignSource => "not a function of the datapack"
  | .unknownFunction => "function is not part of the datapack"
  | .outOfRange => "line is out of range"
  | .noCommand => "not a command"
  | .unparsable e => e.text

/-- A breakpoint that the client has asked for. -/
structure RequestedBreakpoint where
  line : Int
  refusal : Option BreakpointRefusal
deriving DecidableEq, Repr

namespace RequestedBreakpoint

/-- Does the breakpoint have an effect? -/
def isVerified (b : RequestedBreakpoint) : Bool := b.refusal.isNone

/-- Why the breakpoint has no effect, or nothing. -/
def message (b : RequestedBreakpoint) : Text := (b.refusal.map (·.message)).getD []

/-- The breakpoints with a requested one.  A line below zero is left out, as it has no position: no
    function has such a line, so the client is told that the breakpoint has no effect. -/
def addTo (bs : Breakpoints) (b : RequestedBreakpoint) : Breakpoints :=
  if b.line < 0 then bs
  else bs.set ⟨b.line.toNat, .breakpoint⟩ ⟨if b.isVerified then .normal else .invalid, []⟩

end RequestedBreakpoint

/-- What speaks against a breakpoint at a line of a function. -/
def lineRefusal? (f : Option Function) (line : Int) : Option BreakpointRefusal :=
  match f with
  | none => some .unknownFunction
  | some f =>
    if line < 1 then some .outOfRange
    else match f.lines[line.toNat - 1]? with
      | none => some .outOfRange
      | some l =>
        match l.line with
        | .empty | .comment => some .noCommand
        | .other _ (some e) => some (.unparsable e)
        | .other _ none | .breakpoint | .call _ | .schedule _ => none

namespace SessionM

/-! ### Starting -/

/-- Start the debugged function in the next tick. -/
def schedule : SessionM Unit := do
  update
  let l ← launch
  let id := (← get).idOf l.entry
  inject
    [⟨l.ns, "scoreboard players set launch " ++ l.ns ++ "_function_id " ++ Text.ofNat id⟩,
      ⟨l.ns, "function " ++ l.ns ++ ":schedule"⟩]
  modify fun s =>
    { s with scheduled := true, status := (s.status.transfer? .running [.launched]).getD s.status }

/-- Check what is to be debugged. -/
def checkOptions (o : LaunchOptions) : Except SessionError Launch :=
  if !o.isConnected || o.output.isEmpty || o.datapack.isEmpty then .error .incompleteLaunch
  else match ResourceName.parse o.function with
    | .error _ => .error (.invalidEntry o.function)
    | .ok entry =>
      match o.config.error? with
      | some e => .error (.refusedConfig e)
      | none => .ok { datapack := o.datapack, entry, output := o.output, config := o.config }

/-- Inject commands one after the other. -/
def injectEach (commands : List Text) : SessionM Unit := commands.forM injectOne

/-- The name of a datapack in a directory, as commands write it. -/
def packArgument (dir : Text) : Text := "\"file/" ++ Path.base dir ++ "\""

/-- Install the generated datapack on the server. -/
def launchWith (o : LaunchOptions) : SessionM Unit := do
  require [.initialized] .alreadyLaunched
  let l ← checkOptions o
  modify fun s => { s with launch := some l }
  loadFunctions
  if ((← get).function? l.entry).isNone then throw (.functionNotFound l.entry)
  ask (.listen l.ns)
  generate (← get).effectiveBreakpoints
  injectEach ["reload", "datapack enable " ++ packArgument l.output,
    "function " ++ l.ns ++ ":install"]
  modify fun s => { s with status := .launched }
  if (← get).configured then schedule

/-- The client has set its breakpoints. -/
def configurationDone : SessionM Unit := do
  modify fun s => { s with configured := true }
  let s ← get
  if s.status == .launched && !s.scheduled then schedule

/-! ### Breakpoints -/

/-- The commands that rename the tag of a position. -/
def moveCommands (ns : Text) (f : ResourceName) (move : Position × Position) :
    List ServerCommand :=
  let old := Tag.text ns (.position f move.1)
  let new := Tag.text ns (.position f move.2)
  [⟨ns, "tag @e[tag=" ++ old ++ "] add " ++ new⟩, ⟨ns, "tag @e[tag=" ++ old ++ "] remove " ++ old⟩]

/-- The stop after a breakpoint was moved. -/
def moveStop (f : ResourceName) (stop : Stop) (move : Position × Position) : Stop :=
  if stop.function == f && stop.position == move.1 then { stop with position := move.2 } else stop

/-- Rename the tags of moved breakpoints on the server, one after the other, and let the stop go
    with them. -/
def moveBreakpoints (f : ResourceName) (old new : Breakpoints) : SessionM Unit := do
  let moves := old.moves new
  modifyStop fun stop => moves.foldl (moveStop f) stop
  let ns := (← get).ns
  unless moves.isEmpty do inject (moves.flatMap (moveCommands ns f))

/-- Set the breakpoints of a source.  The outcome tells of each whether it has an effect, and why
    the server could not be brought up to date. -/
def setBreakpoints (source : Text) (lines : List Int) :
    SessionM (List RequestedBreakpoint × Option SessionError) := do
  require [.launched, .stopped, .running] .notLaunched
  reloadModified
  let l ← launch
  match FunctionFile.name? (Datapack.dataDir l.datapack) source with
  | none => return (lines.map (⟨·, some .foreignSource⟩), none)
  | some name =>
    let f := (← get).function? name
    let requested := lines.map fun line => ⟨line, lineRefusal? f line⟩
    let new := requested.foldl RequestedBreakpoint.addTo []
    let old := (← get).breakpoints.of name
    modify fun s => { s with breakpoints := s.breakpoints.set name new }
    let apply := if (← get).stale && old.onlyMoved new then moveBreakpoints name old new else update
    let failure ← try apply; pure none catch e => pure (some e)
    return (requested, failure)

/-! ### Going on -/

/-- The depth of the stop. -/
def currentDepth : SessionM Int := do
  match ← frames with
  | f :: _ => return f.depth
  | [] => return 0

/-- Go on, up to the next stop of a step if there is one. -/
def resume (step : Option StepKind) : SessionM Unit := do
  require [.stopped] .notStopped
  modify fun s => { s with stepDepth := none }
  if let some kind := step then
    let depth ← currentDepth
    modify fun s => { s with stepDepth := some (wrap64 (depth + kind.depthOffset)) }
  update
  injectOne ("function " ++ (← get).ns ++ ":resume_self")
  modify fun s =>
    { s with stop := none, status := (s.status.transfer? .running [.stopped]).getD s.status }

/-! ### Reports of the server -/

/-- Why the program has stopped at a position. -/
def stopReason (s : Session) (f : ResourceName) (p : Position) : StopReason :=
  let isNormal := ((s.breakpoints.of f).at? p).any fun b => b.type == .normal
  if isNormal || s.isStaticBreakpoint f p then .breakpoint else .step

/-- The debugged function has ended. -/
def handleExit : SessionM Unit := do
  modify fun s => { s with stop := none, stepDepth := none, status := .terminated }
  ask (.notify (.exited 0 []))
  reportEnd

/-- The program has stopped. -/
def handleStop (f : ResourceName) (p : Position) : SessionM Unit := do
  let s ← get
  if s.status == .running then
    let reason := stopReason s f p
    set { s with
      stop := some { function := f, position := p, reason }, stepDepth := none, status := .stopped }
    let _ ← frames
    ask (.notify (.stopped reason ((← get).pathOf f) p.line))

/-- Handle something that a block of the debugger has reported. -/
def handleEvent (e : LogEvent) : SessionM Unit := do
  match Report.addedTag? e.output with
  | none => return ()
  | some tag =>
    let ns := (← get).ns
    if tag == Tag.text ns .exit then handleExit
    else match Tag.parsePosition? ns tag with
      | some (f, p) => handleStop f p
      | none => return ()

/-- A source has changed. -/
def sourceModified : SessionM Unit := modify fun s => { s with sourceModified := true }

/-! ### The end -/

/-- Inject commands up to the first failure, which is ignored. -/
def injectWhileConnected (ns : Text) : List Text → SessionM Unit
  | [] => return ()
  | c :: cs => do
    match ← ask (.inject [⟨ns, c⟩]) with
    | none => injectWhileConnected ns cs
    | some _ => return ()

/-- Remove the datapack from the server and from its directory, and close the connection. -/
def cleanUp (l : Launch) : SessionM (Option FileError) := do
  modify fun s => { s with cleanedUp := true }
  injectWhileConnected l.ns
    ["function " ++ l.ns ++ ":uninstall", "datapack disable " ++ packArgument l.output]
  ask .unlisten
  let failure ← ask (.removeAll l.output)
  ask .closeConnection
  return failure

/-- End the session. -/
def terminate : SessionM Unit := do
  match (← get).launch with
  | none => modify fun s => { s with status := .terminated }
  | some l =>
    let failure ← if (← get).cleanedUp then pure none else cleanUp l
    modify fun s => { s with status := .terminated }
    reportEnd
    if let some e := failure then throw (.file e)

end SessionM

end DatapackDebug
