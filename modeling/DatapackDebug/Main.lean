import DatapackDebug.Adapter.Agenda
import DatapackDebug.Cli.Run

namespace DatapackDebug

/-!
# The program

The command line, on the files of the computer; and the debug adapter, on standard input and output,
with a server that is reached through its log file and its console.

What is computed here are replies only: all decisions are made by `Cli.run`, `AdapterM.handle` and
`Agenda`.
-/

/-! ### Files -/

/-- The text of a path. -/
def pathString (path : Text) : String := (String.fromUTF8? (ByteArray.mk path.toArray)).getD ""

/-- The bytes of an array. -/
def bytesOf (b : ByteArray) : Text := b.data.toList

/-- The array of bytes. -/
def byteArrayOf (t : Text) : ByteArray := ByteArray.mk t.toArray

/-- What failed, as far as it is known. -/
def failureOf : IO.Error → FileFailure
  | .noFileOrDirectory _ _ _ => .missing
  | .inappropriateType _ _ _ => .notDirectory
  | _ => .invalid

/-- Is there a directory at the path? -/
def isDirectory (path : Text) : IO Bool := do
  try (← IO.FS.realPath (pathString path)).isDir
  catch _ => return false

/-- Is there a file at the path? -/
def isFile (path : Text) : IO Bool := do
  try
    let found ← IO.FS.realPath (pathString path)
    return (← found.pathExists) && !(← found.isDir)
  catch _ => return false

/-- The content of a file. -/
def readFile (path : Text) : IO (Except FileError Text) := do
  if ← isDirectory path then return .error ⟨"read", path, .isDirectory⟩
  try return .ok (bytesOf (← IO.FS.readBinFile (pathString path)))
  catch e => return .error ⟨"open", path, failureOf e⟩

/-- The files and directories below a path. -/
partial def readTree (path : Text) : IO FileTree := do
  if ← isDirectory path then
    let entries ← (← IO.FS.realPath (pathString path)).readDir
    let trees ← entries.toList.mapM fun e => do
      let name := Text.ofString e.fileName
      return (name, ← readTree (Path.join [path, name]))
    return .dir (SortedAssoc.ofList Text.compare trees)
  else return .file (bytesOf (← IO.FS.readBinFile (pathString path)))

/-- What stands at a path. -/
def findTree (path : Text) : IO (Except FileFailure FileTree) := do
  try
    if (← isDirectory path) || (← isFile path) then return .ok (← readTree path)
    return .error .missing
  catch e => return .error (failureOf e)

/-- Remove what stands at a path. -/
def removePath (path : Text) : IO (Option FileError) := do
  if Path.endsInDot path then return some ⟨"RemoveAll", path, .invalid⟩
  try
    if ← isDirectory path then IO.FS.removeDirAll (pathString path)
    else if ← isFile path then IO.FS.removeFile (pathString path)
    return none
  catch e => return some ⟨"unlinkat", path, failureOf e⟩

/-- Make a directory and those that lead to it. -/
def makeDirectories (path : Text) : IO (Option FileError) := do
  try
    IO.FS.createDirAll (pathString path)
    return none
  catch e => return some ⟨"mkdir", path, failureOf e⟩

/-- Write files into a directory up to the first failure. -/
def writeFiles (dir : Text) : List (Text × Text) → IO (Option FileError)
  | [] => return none
  | (path, content) :: files => do
    let path := Path.join [dir, path]
    if let some e ← makeDirectories (Path.parent path) then return some e
    try IO.FS.writeBinFile (pathString path) (byteArrayOf content)
    catch e => return some ⟨"open", path, failureOf e⟩
    writeFiles dir files

/-- Replace a directory by one that holds files. -/
def replaceDirectory (dir : Text) (files : List (Text × Text)) : IO (Option FileError) := do
  if let some e ← removePath dir then return some e
  if let some e ← makeDirectories dir then return some e
  writeFiles dir files

/-- Open a file for appending, and make the directories that lead to it. -/
def openForAppending (path : Text) : IO (Option FileError) := do
  if let some e ← makeDirectories (Path.parent path) then return some e
  if ← isDirectory path then return some ⟨"open", path, .isDirectory⟩
  try
    let _ ← IO.FS.Handle.mk (pathString path) .append
    return none
  catch e => return some ⟨"open", path, failureOf e⟩

/-! ### The command line -/

/-- The reply to a request of a command. -/
def answerCommand : (r : Cli.CliRequest) → IO (Cli.cliSignature.Reply r)
  | .variable name => return ((← IO.getEnv (pathString name)).map Text.ofString).getD []
  | .read path => readFile path
  | .findTree path => findTree path
  | .openLog path => openForAppending path
  | .replaceDir dir files => replaceDirectory dir files

/-! ### A running server -/

/-- A connection to a running server. -/
structure ServerLink where
  connection : LogFileConnection
  console : IO.FS.Handle
  log : IO.FS.Handle
  /-- the name of the blocks whose reports the session handles -/
  listener : Option Text := none
  /-- the reports that the session has not handled -/
  pending : List LogEvent := []
  /-- what was reported since the commands of a query were injected, and when waiting ends -/
  query : Option (List LogEvent × Nat) := none

/-- How many milliseconds a query waits. -/
def queryTimeout : Nat := 10000

/-- The reply of a console. -/
def answerConsole (console : IO.FS.Handle) : (r : ConsoleRequest) → IO (consoleSignature.Reply r)
  | .now => IO.monoMsNow
  | .wait ms => do
    IO.sleep ms.toUInt32
    return false
  | .write t => do
    try
      console.write (byteArrayOf t)
      console.flush
      return none
    catch e => return some (Text.ofString (toString e))

/-- Reach the console and the log that the arguments name. -/
def openLink (position : BlockPos) (a : LaunchArguments) : IO (Except OpenError ServerLink) := do
  if !a.serverCommand.isEmpty then return .error (.refused "starting a server is not supported")
  if ← isDirectory a.console then
    return .error (.console a.console ⟨"open", a.console, .isDirectory⟩)
  if !(← isFile a.console) then
    return .error (.console a.console ⟨"open", a.console, .missing⟩)
  let console ← IO.FS.Handle.mk (pathString a.console) .append
  let refusal ← if !(← isDirectory (Path.parent a.logFile)) then
      pure (some (LogFileError.unwatchableLog .missing))
    else if !(← isFile a.logFile) then
      pure (some (.unreadableLog ⟨"open", a.logFile, .missing⟩))
    else pure none
  match ← (LogFileConnection.connect position true refusal).runM (answerConsole console) with
  | .error e => return .error (.log e)
  | .ok connection =>
    let log ← IO.FS.Handle.mk (pathString a.logFile) .read
    let _ ← log.readBinToEnd
    return .ok { connection, console, log }

/-- The link after what was added to the log. -/
def ServerLink.poll (l : ServerLink) : IO ServerLink := do
  let (connection, events) := l.connection.read (bytesOf (← l.log.read 65536))
  let heard := events.filter fun e => l.listener == some e.executor
  return { l with
    connection, pending := l.pending ++ heard
    query := l.query.map fun (seen, deadline) => (seen ++ events, deadline) }

/-- Inject commands. -/
def ServerLink.inject (l : ServerLink) (commands : List ServerCommand) :
    IO (Option ConnectionError × ServerLink) := do
  match ← (l.connection.inject commands).runM (answerConsole l.console) with
  | (.ok _, connection) => return (none, { l with connection })
  | (.error e, connection) => return (some e, { l with connection })

/-! ### The adapter -/

/-- What the adapter works with. -/
structure AdapterDesk where
  position : BlockPos
  agenda : IO.Ref Agenda
  link : IO.Ref (Option ServerLink)
  /-- the directory that is watched, and what it held when it was last looked at -/
  watched : IO.Ref (Option (Text × List (List Text × Text)))
  stdout : IO.FS.Stream

namespace AdapterDesk

/-- Send a message to the client. -/
def send (d : AdapterDesk) (m : AdapterMessage) : IO Unit := do
  d.stdout.write (byteArrayOf (Packet.wrap m.toJson.render))
  d.stdout.flush

/-- The files of functions in a directory. -/
def functionsIn (dir : Text) : IO (List (List Text × Text)) := do
  match ← findTree dir with
  | .ok tree => return tree.files.filter fun f =>
    f.1.getLast?.any (Text.endsWith · FunctionFile.extension)
  | .error _ => return []

/-- Random bytes in hexadecimal. -/
def randomName (bytes : Nat) : IO Text := do
  return (bytesOf (← IO.getRandomBytes bytes.toUSize)).toHex

/-- The reply to a query, once there is one. -/
def answerQuery (d : AdapterDesk) (l : ServerLink) (commands : List ServerCommand) (last : Text) :
    IO (Option (Except ConnectionError (List LogEvent × QueryEnd))) := do
  match l.query with
  | none =>
    match ← l.inject commands with
    | (some e, l) =>
      d.link.set (some l)
      return some (.error e)
    | (none, l) =>
      d.link.set (some { l with query := some ([], (← IO.monoMsNow) + queryTimeout) })
      return none
  | some (seen, deadline) =>
    let l ← l.poll
    let seen := (l.query.map (·.1)).getD seen
    let cancelled := (← d.agenda.get).isCancelled
    let late := (← IO.monoMsNow) ≥ deadline
    let ending? : Option QueryEnd :=
      if cancelled then some .cancelled
      else if late || seen.any (·.executor == last) then some .deadline
      else none
    match ending? with
    | none =>
      d.link.set (some l)
      return none
    | some ending =>
      d.link.set (some { l with query := none })
      return some (.ok (seen, ending))

/-- The reply to a request of a session. -/
def answerSession (d : AdapterDesk) :
    (r : SessionRequest) → IO (Option (sessionSignature.Reply r))
  | .isCancelled => return some (← d.agenda.get).isCancelled
  | .findTree path => return some (← findTree path)
  | .replaceDir dir files => return some (← replaceDirectory dir files)
  | .removeAll path => return some (← removePath path)
  | .listen ns => do
    d.link.modify fun l => l.map fun l => { l with listener := some ns }
    return some ()
  | .unlisten => do
    d.link.modify fun l => l.map fun l => { l with listener := none }
    return some ()
  | .inject commands => do
    match ← d.link.get with
    | none => return some (some (.closed none))
    | some l =>
      let (e, l) ← l.inject commands
      d.link.set (some l)
      return some e
  | .query commands last => do
    match ← d.link.get with
    | none => return some (.error (.closed none))
    | some l => d.answerQuery l commands last
  | .closeConnection => do
    d.link.set none
    return some ()
  | .notify e => do
    d.send (.event (.ofSessionEvent e))
    return some ()

/-- The reply to a request of the adapter. -/
def answer (d : AdapterDesk) : (r : AdapterRequest) → IO (Option (adapterSignature.Reply r))
  | .session r => d.answerSession r
  | .openConnection a => do
    match ← openLink d.position a with
    | .error e => return some (.error e)
    | .ok l =>
      d.link.set (some l)
      return some (.ok ())
  | .send m => do
    d.send m
    return some ()
  | .newProgress request => do
    let id ← randomName 16
    d.agenda.modify fun a => a.addProgress id request
    return some id
  | .newPackName => return some (Text.ofString "mcfd-" ++ (← randomName 4))
  | .read path => return some (← readFile path)
  | .watch dir => do
    d.watched.set (some (dir, ← functionsIn dir))
    return some ()
  | .unwatch => do
    d.watched.set none
    return some ()

/-- Was a source changed since this was last asked? -/
def sourceChanged (d : AdapterDesk) : IO Bool := do
  match ← d.watched.get with
  | none => return false
  | some (dir, old) =>
    let new ← functionsIn dir
    d.watched.set (some (dir, new))
    return new != old

/-- The next thing to be done, if there is any.  Sources are looked at before a request is
    handled. -/
def next? (d : AdapterDesk) (a : Adapter) : IO (Option (AdapterM Unit)) := do
  match (← d.agenda.get).next? with
  | some (kind, r, agenda) =>
    if ← d.sourceChanged then return some AdapterM.handleChange
    d.agenda.set agenda
    return some (Agenda.work kind r)
  | none =>
    if a.session.isNone then return none
    match ← d.link.get with
    | none => return none
    | some l =>
      let l ← l.poll
      match l.pending with
      | [] =>
        d.link.set (some l)
        return none
      | e :: pending =>
        d.link.set (some { l with pending })
        return some (AdapterM.handleEvent e)

end AdapterDesk

/-- What has arrived from the client and was not read yet, and whether nothing more will come. -/
abbrev Inbox := IO.Ref (Text × Bool)

/-- Take what arrives into the inbox. -/
partial def fillInbox (stdin : IO.FS.Stream) (inbox : Inbox) : IO Unit := do
  let bytes ← stdin.read 65536
  if bytes.isEmpty then inbox.modify fun (t, _) => (t, true)
  else
    inbox.modify fun (t, ended) => (t ++ bytesOf bytes, ended)
    fillInbox stdin inbox

/-- Receive the messages of an input.  The outcome is what is left of it, or nothing if no more is
    read. -/
partial def receiveAll (d : AdapterDesk) (input : Text) : IO (Option Text) := do
  match Packet.read input with
  | .incomplete => return some input
  | .malformed => return none
  | .packet content rest =>
    match ClientMessage.parse? content with
    | none => return none
    | some m =>
      let (agenda, answer) := (← d.agenda.get).receive m
      d.agenda.set agenda
      if let some m := answer then d.send m
      receiveAll d rest

/-- Serve the client until it is gone.  `input` is what is left of its messages, as long as they are
    read, and `work` what the adapter is doing. -/
partial def serve (d : AdapterDesk) (inbox : Inbox) (input : Option Text) (a : Adapter)
    (work : Option (Dialogue adapterSignature Adapter)) : IO Unit := do
  let (arrived, ended) ← inbox.modifyGet fun (t, ended) => ((t, ended), ([], ended))
  let input ← match input with
    | none => pure none
    | some left => receiveAll d (left ++ arrived)
  if let some doing := work then
    match ← doing.advanceM d.answer with
    | .done a =>
      d.agenda.modify (·.finish)
      if a.broken then return
      serve d inbox input a none
    | doing =>
      IO.sleep 10
      serve d inbox input a (some doing)
  else if let some m ← d.next? a then
    serve d inbox input a (some do return (← m.run a).2)
  else if input.isNone || ended then
    let _ ← (AdapterM.close.run a).advanceM d.answer
  else
    IO.sleep 10
    serve d inbox input a none

/-- Run a debug adapter on standard input and output. -/
def runAdapter (config : Config) : IO Unit := do
  let d : AdapterDesk :=
    { position := config.runtime.injectPosition, agenda := ← IO.mkRef {}, link := ← IO.mkRef none
      watched := ← IO.mkRef none, stdout := ← IO.getStdout }
  let inbox ← IO.mkRef ([], false)
  let stdin ← IO.getStdin
  let _ ← IO.asTask (fillInbox stdin inbox) .dedicated
  serve d inbox (some []) { config } none

end DatapackDebug

open DatapackDebug in
/-- Run a command line. -/
def main (args : List String) : IO UInt32 := do
  let write (stream : IO.FS.Stream) (t : Text) : IO Unit := do
    stream.write (byteArrayOf t)
    stream.flush
  match ← (Cli.run (args.map Text.ofString)).run.runM answerCommand with
  | .ok (.printed t) =>
    write (← IO.getStdout) t
    return 0
  | .ok (.noted t) =>
    write (← IO.getStderr) t
    return 0
  | .ok (.adapter config) =>
    runAdapter config
    return 0
  | .error e =>
    write (← IO.getStderr) (Cli.errorOutput e)
    return 1
