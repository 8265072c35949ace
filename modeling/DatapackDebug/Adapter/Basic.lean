import DatapackDebug.Adapter.ClientMessage
import DatapackDebug.Adapter.LaunchArguments
import DatapackDebug.Adapter.Message
import DatapackDebug.Config.Basic

namespace DatapackDebug

/-!
# The debug adapter

A debug adapter stands between a client, which shows the program to the user, and a session, which
debugs it on a server.

* `Adapter` — what the adapter knows;
* `AdapterRequest` — what it asks of its host;
* `AdapterM` — computations of the adapter, as dialogues with its host;
* `AdapterM.runSession` — an operation of a session as part of such a computation.
-/

/-- What the adapter knows. -/
structure Adapter where
  config : Config := {}
  /-- the grammar, once it was needed -/
  grammar : Option Grammar := none
  /-- the session, once it was launched -/
  session : Option Session := none
  /-- does the client want to be told of progress? -/
  supportsProgress : Bool := false
  /-- was it noticed that the server reports no more? -/
  lost : Bool := false
  /-- has a request asked for what there is not?  Then the adapter stops at once. -/
  broken : Bool := false

/-- Why a server could not be reached. -/
inductive OpenError where
  /-- the request was cancelled -/
  | cancelled
  | console (path : Text) (e : FileError)
  | log (e : LogFileError)
  | refused (why : Text)
deriving DecidableEq, Repr

/-- The wording of the error. -/
def OpenError.message : OpenError → Text
  | .cancelled => "cancelled"
  | .console path e => "open console " ++ path ++ ": " ++ e.message
  | .log e => e.message
  | .refused why => why

/-- What an adapter asks of its host. -/
inductive AdapterRequest where
  /-- what the session asks for -/
  | session (r : SessionRequest)
  /-- reach a server as the arguments say -/
  | openConnection (a : LaunchArguments)
  | send (m : AdapterMessage)
  /-- a new name for the progress of a request, by which the client may cancel it -/
  | newProgress (request : Int)
  /-- a new name for a generated datapack -/
  | newPackName
  | read (path : Text)
  /-- tell the session of changes in a directory from now on -/
  | watch (dir : Text)
  | unwatch
deriving DecidableEq, Repr

/-- Hosts of adapters. -/
def adapterSignature : Signature where
  Request := AdapterRequest
  Reply
    | .session r => sessionSignature.Reply r
    | .openConnection _ => Except OpenError Unit
    | .send _ => Unit
    | .newProgress _ => Text
    | .newPackName => Text
    | .read _ => Except FileError Text
    | .watch _ => Unit
    | .unwatch => Unit

/-- A computation of an adapter. -/
abbrev AdapterM := StateT Adapter (Dialogue adapterSignature)

/-- Was the error brought about by a cancellation? -/
def SessionError.isCancellation : SessionError → Bool
  | .cancelled | .connection .cancelled | .datapack .cancelled => true
  | _ => false

/-- What the client is told of an error. -/
def SessionError.clientMessage (e : SessionError) : Text :=
  if e.isCancellation then SessionError.cancelled.message else e.message

namespace AdapterM

/-- Ask the host. -/
def ask (r : AdapterRequest) : AdapterM (adapterSignature.Reply r) :=
  StateT.lift (Dialogue.perform (S := adapterSignature) r)

/-- Send a message to the client. -/
def send (m : AdapterMessage) : AdapterM Unit := ask (.send m)

/-- Answer a request. -/
def succeed (r : ClientRequest) (body : ResponseBody) : AdapterM Unit :=
  send (.response r.seq r.command body)

/-- Answer a request that has failed. -/
def fail (r : ClientRequest) (message : Text) : AdapterM Unit :=
  send (.failure r.seq r.command message)

/-- A request of a session as one of the adapter.  What the session reports goes to the client. -/
def forward : (r : SessionRequest) → Dialogue adapterSignature (sessionSignature.Reply r)
  | .notify e =>
    Dialogue.perform (S := adapterSignature) (.send (.event (.ofSessionEvent e)))
  | r => Dialogue.perform (S := adapterSignature) (.session r)

/-- The outcome of an operation of a session, and the session after it. -/
def runSession {α : Type} (s : Session) (m : SessionM α) :
    AdapterM (Except SessionError α × Session) :=
  StateT.lift ((m.run.run s).handle forward)

/-- The outcome of an operation of the session that was launched. -/
def inSession {α : Type} (s : Session) (m : SessionM α) : AdapterM (Except SessionError α) := do
  let (result, s) ← runSession s m
  modify fun a => { a with session := some s }
  return result

/-- Answer a request by an operation of the session, which must have been launched. -/
def answerBy {α : Type} (r : ClientRequest) (m : SessionM α) (succeeded : α → AdapterM Unit) :
    AdapterM Unit := do
  match (← get).session with
  | none => fail r SessionError.notLaunched.message
  | some s =>
    match ← inSession s m with
    | .error e => fail r e.clientMessage
    | .ok a => succeeded a

/-- Tell the client of the progress of a request while it is handled. -/
def withProgress {α : Type} (r : ClientRequest) (title : Text) (m : AdapterM α) : AdapterM α := do
  if !(← get).supportsProgress then m
  else
    let id ← ask (.newProgress r.seq)
    send (.event (.progressStart id title r.seq))
    let a ← m
    send (.event (.progressEnd id))
    return a

end AdapterM

end DatapackDebug
