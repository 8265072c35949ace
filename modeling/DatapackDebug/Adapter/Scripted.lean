import DatapackDebug.Adapter.Agenda
import DatapackDebug.Server.LogFileStore
import DatapackDebug.Server.Scripted

namespace DatapackDebug

/-!
# Scripted adapters

An adapter whose client and server follow a script.  It works until nothing is left to be done, or
until the server keeps it waiting.

* `AdapterHost` — the server, the files, and the messages for the client;
* `AdapterHost.answer` — the replies to the requests of an adapter;
* `ScriptedAdapter` — an adapter at work on such a host;
* `ScriptedAdapter.settle` — the adapter when it has done what it can.
-/

/-- What the adapter reaches when it opens a connection. -/
inductive ServerAccess where
  /-- the scripted server -/
  | scripted
  /-- the console and the log that the arguments name -/
  | logFile (position : BlockPos)
deriving DecidableEq, Repr

/-- A connection to a console. -/
structure ConsoleLink where
  connection : LogFileConnection
  console : Text
  clock : Nat := 0
deriving DecidableEq, Repr

/-- The host of a scripted adapter. -/
structure AdapterHost where
  server : ScriptedHost
  access : ServerAccess := .scripted
  link : Option ConsoleLink := none
  /-- why no connection is opened, if it is not empty -/
  openError : Text := []
  /-- are connections and queries left waiting? -/
  blocked : Bool := false
  /-- the commands of a query that waits for its answer, and the number of its listener -/
  held : Option (List ServerCommand × Nat) := none
  /-- the directory that is watched for changes -/
  watched : Option Text := none
  sent : List AdapterMessage := []
  /-- the name of the next generated datapack -/
  packName : Text := "mcfd"
  progressName : Nat → Text := Text.ofNat
  progressCount : Nat := 0

namespace AdapterHost

/-- Send a message to the client. -/
def send (h : AdapterHost) (m : AdapterMessage) : AdapterHost := { h with sent := h.sent ++ [m] }

/-- The files. -/
def files (h : AdapterHost) : FileStore := h.server.files

/-- The host with other files. -/
def withFiles (h : AdapterHost) (files : FileStore) : AdapterHost :=
  { h with server := { h.server with files } }

/-! ### Connections -/

/-- Reach the console and the log that the arguments name. -/
def openLogFile (h : AdapterHost) (position : BlockPos) (a : LaunchArguments) :
    Except OpenError Unit × AdapterHost :=
  match ConsoleFile.refusal? h.files a.console with
  | some e => (.error (.console a.console e), h)
  | none =>
    let connect := LogFileConnection.connect position true
      (LogFileConnection.refusal? h.files a.logFile)
    let (result, console) := connect.run ConsoleFile.answer { files := h.files, path := a.console }
    let h := h.withFiles console.files
    match result with
    | .error e => (.error (.log e), h)
    | .ok connection =>
      (.ok (), { h with
        link := some { connection, console := a.console, clock := console.clock } })

/-- Reach the scripted server anew. -/
def openScripted (h : AdapterHost) : AdapterHost :=
  { h with
    server := { h.server with
      connectionClosed := false, listeners := {}, subscriptions := [], subscribed := false
      pending := [] } }

/-- Open a connection, unless the adapter is kept waiting. -/
def openConnection (h : AdapterHost) (a : LaunchArguments) (cancelled : Bool) :
    Option (Except OpenError Unit) × AdapterHost :=
  if h.blocked then (if cancelled then some (.error .cancelled) else none, h)
  else if !h.openError.isEmpty then (some (.error (.refused h.openError)), h)
  else match h.access with
    | .scripted => (some (.ok ()), h.openScripted)
    | .logFile position =>
      let (result, h) := h.openLogFile position a
      (some result, h)

/-- Inject commands through a console. -/
def injectLink (h : AdapterHost) (link : ConsoleLink) (commands : List ServerCommand) :
    Option ConnectionError × AdapterHost :=
  let ((result, connection), console) := (link.connection.inject commands).run ConsoleFile.answer
    { files := h.files, path := link.console, clock := link.clock }
  let h := { h.withFiles console.files with
    link := some { link with connection, clock := console.clock } }
  match result with
  | .ok _ => (none, h)
  | .error e => (some e, h)

/-! ### Queries that wait -/

/-- Inject the commands of a query; the answer is left waiting. -/
def hold (h : AdapterHost) (commands : List ServerCommand) :
    Option (Except ConnectionError (List LogEvent × QueryEnd)) × AdapterHost :=
  match { h.server with cancelled := true }.injectListening commands with
  | ((some e, _), _) => (some (.error e), h)
  | ((none, id), server) =>
    if server.connectionClosed then (some (.ok ([], .closed)), { h with server })
    else (none, { h with server, held := some (commands, id) })

/-- The answer to a query that waits, once there is one. -/
def released (h : AdapterHost) (commands : List ServerCommand) (id : Nat) (cancelled : Bool) :
    Option (Except ConnectionError (List LogEvent × QueryEnd)) × AdapterHost :=
  if h.blocked && !cancelled && !h.server.connectionClosed then (none, h)
  else
    let server := { h.server with cancelled }
    let server := if cancelled || server.connectionClosed then server else server.reply commands
    let (heard, server) := server.hear id
    (some (.ok heard), { h with server, held := none })

/-! ### Replies -/

/-- The reply of the server and the files to a request of a session. -/
def answerServer (h : AdapterHost) (r : SessionRequest) (cancelled : Bool) :
    Option (sessionSignature.Reply r) × AdapterHost :=
  let (reply, server) := ScriptedHost.answer r { h.server with cancelled }
  (some reply, { h with server })

/-- The reply to a request of a session. -/
def answerSession : (r : SessionRequest) → Bool → AdapterHost →
    Option (sessionSignature.Reply r) × AdapterHost
  | .query commands last, cancelled, h =>
    match h.link, h.held with
    | some link, _ =>
      match h.injectLink link commands with
      | (some e, h) => (some (.error e), h)
      | (none, h) => (some (.ok ([], .deadline)), h)
    | none, some (commands, id) => h.released commands id cancelled
    | none, none =>
      if h.blocked && !cancelled then h.hold commands
      else h.answerServer (.query commands last) cancelled
  | .inject commands, cancelled, h =>
    match h.link with
    | some link =>
      let (e, h) := h.injectLink link commands
      (some e, h)
    | none => h.answerServer (.inject commands) cancelled
  | .listen ns, cancelled, h =>
    if h.link.isSome then (some (), h) else h.answerServer (.listen ns) cancelled
  | .closeConnection, cancelled, h =>
    if h.link.isSome then (some (), { h with link := none })
    else h.answerServer .closeConnection cancelled
  | r, cancelled, h => h.answerServer r cancelled

/-- The reply to a request of an adapter. -/
def answer : (r : AdapterRequest) → Bool → AdapterHost →
    Option (adapterSignature.Reply r) × AdapterHost
  | .session r, cancelled, h => answerSession r cancelled h
  | .openConnection a, cancelled, h => h.openConnection a cancelled
  | .send m, _, h => (some (), h.send m)
  | .newProgress _, _, h =>
    let progressCount := h.progressCount + 1
    (some (h.progressName progressCount), { h with progressCount })
  | .newPackName, _, h => (some h.packName, h)
  | .read path, _, h => (some (h.files.read path), h)
  | .watch dir, _, h => (some (), { h with watched := some dir })
  | .unwatch, _, h => (some (), { h with watched := none })

/-- Is a change of a file noticed?  Files of functions are, and files in new directories. -/
def notices (h : AdapterHost) (path : Text) : Bool :=
  h.watched.any fun dir =>
    (Path.relative? dir path).any (fun p => !Text.startsWith p "..") &&
      (Text.endsWith path FunctionFile.extension ||
        (h.files.find (Path.parent path)) matches .error _)

end AdapterHost

/-- An adapter at work. -/
structure ScriptedAdapter where
  adapter : Adapter
  host : AdapterHost
  agenda : Agenda := {}
  /-- what the adapter is doing, if it is kept waiting -/
  work : Option (Dialogue adapterSignature Adapter) := none
  /-- is nothing more to come from the client? -/
  inputEnded : Bool := false
  /-- was the end of the client dealt with? -/
  finished : Bool := false

namespace ScriptedAdapter

/-- The adapter with some work begun. -/
def start (s : ScriptedAdapter) (m : AdapterM Unit) : ScriptedAdapter :=
  { s with work := some do return (← m.run s.adapter).2 }

/-- Go on with some work; the outcome tells whether it is finished. -/
def resume (s : ScriptedAdapter) (work : Dialogue adapterSignature Adapter) :
    ScriptedAdapter × Bool :=
  match work.advance (Agenda.answer AdapterHost.answer) (s.agenda, s.host) with
  | (.done adapter, agenda, host) =>
    ({ s with adapter, agenda := agenda.finish, host, work := none }, true)
  | (work, agenda, host) => ({ s with agenda, host, work := some work }, false)

/-- The first thing to be done between requests. -/
def between? (s : ScriptedAdapter) : Option ScriptedAdapter :=
  if s.inputEnded then some { s.start AdapterM.close with finished := true }
  else if s.adapter.session.isNone || s.adapter.lost then none
  else match s.host.server.pending with
    | e :: pending =>
      let server := { s.host.server with pending }
      some { s.start (AdapterM.handleEvent e) with host := { s.host with server } }
    | [] => if s.host.server.isSilent then some (s.start AdapterM.handleLoss) else none

/-- The next thing to be done, if there is any.  Requests come first. -/
def next? (s : ScriptedAdapter) : Option ScriptedAdapter :=
  if s.finished || s.adapter.broken then none
  else match s.agenda.next? with
    | some (kind, r, agenda) => some { s.start (Agenda.work kind r) with agenda }
    | none => s.between?

/-- One step; the outcome tells whether there may be another. -/
def step (s : ScriptedAdapter) : ScriptedAdapter × Bool :=
  match s.work with
  | some work => s.resume work
  | none =>
    match s.next? with
    | some s => (s, true)
    | none => (s, false)

/-- The adapter when it has done what it can, in at most `fuel` steps. -/
def settle : Nat → ScriptedAdapter → ScriptedAdapter
  | 0, s => s
  | fuel + 1, s =>
    match s.step with
    | (s, true) => settle fuel s
    | (s, false) => s

/-- More steps than a script takes. -/
def stepLimit : Nat := 1000000

/-- The adapter when it has done what it can. -/
def run (s : ScriptedAdapter) : ScriptedAdapter := s.settle stepLimit

/-! ### What happens to the adapter -/

/-- A message arrives; one that cannot be read ends the input. -/
def receive (s : ScriptedAdapter) (m : Option ClientMessage) : ScriptedAdapter :=
  if s.inputEnded then s
  else match m with
    | none => { s with inputEnded := true }
    | some m =>
      let (agenda, answer) := s.agenda.receive m
      { s with agenda, host := answer.elim s.host s.host.send }

/-- A message arrives, and the adapter does what it can. -/
def send (s : ScriptedAdapter) (m : Option ClientMessage) : ScriptedAdapter := (s.receive m).run

/-- Packets arrive, and after them the input ends. -/
def sendLast (s : ScriptedAdapter) (input : Text) : ScriptedAdapter :=
  ((ClientMessage.readAll (input.length + 1) input).foldl
    (fun s m => s.receive (some m)) s).send none

/-- Change the host. -/
def withHost (s : ScriptedAdapter) (f : AdapterHost → AdapterHost) : ScriptedAdapter :=
  { s with host := f s.host }

/-- Change the server. -/
def withServer (s : ScriptedAdapter) (f : ScriptedHost → ScriptedHost) : ScriptedAdapter :=
  s.withHost fun h => { h with server := f h.server }

/-- Keep the adapter waiting, or not. -/
def block (s : ScriptedAdapter) (blocked : Bool) : ScriptedAdapter :=
  s.withHost fun h => { h with blocked }

/-- Messages arrive while the adapter is kept waiting.  Whether it is still so when what they lead
    to is done depends on `release`. -/
def sendBlocked (s : ScriptedAdapter) (ms : List (Option ClientMessage)) (release : Bool) :
    ScriptedAdapter :=
  let s := ms.foldl send (s.block true)
  (if release then (s.block false).run else s).block false

/-- The server logs something.  That is of no interest once the session is over. -/
def log (s : ScriptedAdapter) (e : LogEvent) : ScriptedAdapter :=
  if s.adapter.session.any (·.status != .terminated) then
    (s.withServer fun h => h.log e).run
  else s

/-- The user writes a file; a change that is noticed is told to the session. -/
def edit (s : ScriptedAdapter) (path content : Text) (silent : Bool) : ScriptedAdapter :=
  let noticed := !silent && s.host.notices path
  let s := s.withHost fun h => h.withFiles (h.files.writeFile path content).1
  if noticed then (s.start AdapterM.handleChange).run else s

/-- The connection to the server is closed. -/
def closeConnection (s : ScriptedAdapter) : ScriptedAdapter := (s.withServer (·.close)).run

end ScriptedAdapter

end DatapackDebug
