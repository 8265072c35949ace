import DatapackDebug.Server.LogFile
import DatapackDebug.Session.BreakpointSet
import DatapackDebug.Session.Report
import DatapackDebug.Session.Status

namespace DatapackDebug

/-!
# Debug sessions

A session debugs one function of a datapack on a server.  It keeps the breakpoints of the user, the
functions as they were last read, and what it knows of the server: which datapack is loaded there,
and where the program has stopped.

* `Session` — the state of a session;
* `SessionError` — why an operation fails;
* `SessionEvent` — what a session reports on its own account;
* `SessionM` — operations of a session, as dialogues with its host.
-/

/-! ### What a session is about -/

/-- What is to be debugged, and where the generated datapack goes. -/
structure LaunchOptions where
  datapack : Text
  function : Text
  output : Text
  config : PackConfig := {}
  /-- is there a connection to a server? -/
  isConnected : Bool := true
deriving DecidableEq, Repr

/-- What is debugged. -/
structure Launch where
  datapack : Text
  entry : ResourceName
  output : Text
  config : PackConfig
deriving DecidableEq, Repr

/-- The namespace of the debugger. -/
def Launch.ns (l : Launch) : Text := l.config.ns

/-- Why the program has stopped. -/
inductive StopReason where
  | breakpoint
  | step
deriving DecidableEq, Repr

/-- The name of a reason. -/
def StopReason.text : StopReason → Text
  | .breakpoint => "breakpoint"
  | .step => "step"

/-- A call that has not returned.  Its depth tells calls apart. -/
structure Frame where
  depth : Int
  function : ResourceName
  /-- the file of the function, if it is known -/
  path : Text
  line : Int
  column : Int
deriving DecidableEq, Repr

/-- The score of the executing entity for an objective. -/
structure Variable where
  objective : Text
  score : Option Int
deriving DecidableEq, Repr

/-- The text of a score. -/
def Variable.text (v : Variable) : Text :=
  match v.score with
  | some n => Text.ofInt n
  | none => "none"

/-- A stop; frames and scores are kept once the server was asked for them. -/
structure Stop where
  function : ResourceName
  position : Position
  reason : StopReason
  frames : Option (List Frame) := none
  scores : Option (List Variable) := none
deriving DecidableEq, Repr

/-- How far a step goes. -/
inductive StepKind where
  | over
  | into
  | out
deriving DecidableEq, Repr

/-- The depth at which a step stops at the latest, compared with the present depth. -/
def StepKind.depthOffset : StepKind → Int
  | .over => 0
  | .into => 1
  | .out => -1

/-- The state of a session. -/
structure Session where
  grammar : Grammar
  status : Status := .initialized
  launch : Option Launch := none
  /-- the functions as they were last read -/
  functions : Functions := []
  /-- the objectives of the datapack on the server -/
  objectives : List Text := []
  /-- the breakpoints of the user -/
  breakpoints : BreakpointMap := []
  /-- the key of the breakpoints of the datapack on the server -/
  generated : Text := []
  /-- were functions read again since the datapack was generated? -/
  stale : Bool := false
  /-- has a source changed since it was read? -/
  sourceModified : Bool := false
  stop : Option Stop := none
  /-- the greatest depth at which the present step stops -/
  stepDepth : Option Int := none
  /-- has the client set all its breakpoints? -/
  configured : Bool := false
  /-- was the debugged function started? -/
  scheduled : Bool := false
  /-- was the end of the session reported? -/
  endReported : Bool := false
  /-- was the datapack removed from the server? -/
  cleanedUp : Bool := false

/-- The namespace of the debugger, once it is known. -/
def Session.ns (s : Session) : Text := (s.launch.map Launch.ns).getD []

/-! ### Errors and events -/

/-- Why an operation of a session fails. -/
inductive SessionError where
  | notLaunched
  | notStopped
  | alreadyLaunched
  | incompleteLaunch
  | invalidEntry (function : Text)
  | refusedConfig (e : PackConfigError)
  | datapack (e : DatapackError)
  | functionNotFound (name : ResourceName)
  | packConfig (e : PackConfigError)
  | file (e : FileError)
  | connection (e : ConnectionError)
  /-- the request was cancelled while the session was at work -/
  | cancelled
  | unknownReference
deriving DecidableEq, Repr

/-- The wording of the error. -/
def SessionError.message : SessionError → Text
  | .notLaunched => "The debug session has not been launched"
  | .notStopped => "The program is not stopped"
  | .alreadyLaunched => "The debug session has already been launched"
  | .incompleteLaunch => "Invalid launch arguments"
  | .invalidEntry t => "Invalid launch arguments: function " ++ Text.quoted t
  | .refusedConfig e => "Invalid launch arguments: " ++ e.message
  | .datapack e => e.message
  | .functionNotFound name => "Function not found: " ++ name.text
  | .packConfig e => e.message
  | .file e => e.message
  | .connection e => e.message
  | .cancelled => "cancelled"
  | .unknownReference => "Unknown variables reference"

/-- What a session reports on its own account. -/
inductive SessionEvent where
  | stopped (reason : StopReason) (path : Text) (line : Nat)
  | exited (code : Int) (message : Text)
  | terminated
deriving DecidableEq, Repr

/-! ### Dialogues with the host -/

/-- How listening to the server ends, other than with the report that is waited for. -/
inductive QueryEnd where
  | cancelled
  | deadline
  | closed
deriving DecidableEq, Repr

/-- What a session asks of its host. -/
inductive SessionRequest where
  /-- was the present request of the client cancelled? -/
  | isCancelled
  /-- what stands at a path -/
  | findTree (path : Text)
  /-- replace a directory by one that holds files -/
  | replaceDir (dir : Text) (files : List (Text × Text))
  | removeAll (path : Text)
  /-- deliver what blocks of this name report from now on -/
  | listen (ns : Text)
  | unlisten
  | inject (commands : List ServerCommand)
  /-- inject commands and listen until a block of the name `last` reports -/
  | query (commands : List ServerCommand) (last : Text)
  | closeConnection
  | notify (event : SessionEvent)
deriving DecidableEq, Repr

/-- Hosts of sessions. -/
def sessionSignature : Signature where
  Request := SessionRequest
  Reply
    | .isCancelled => Bool
    | .findTree _ => Except FileFailure FileTree
    | .replaceDir _ _ => Option FileError
    | .removeAll _ => Option FileError
    | .listen _ => Unit
    | .unlisten => Unit
    | .inject _ => Option ConnectionError
    | .query _ _ => Except ConnectionError (List LogEvent × QueryEnd)
    | .closeConnection => Unit
    | .notify _ => Unit

/-- An operation of a session: it talks with the host and changes the session, also if it fails. -/
abbrev SessionM := ExceptT SessionError (StateT Session (Dialogue sessionSignature))

namespace SessionM

/-- Ask the host. -/
def ask (r : SessionRequest) : SessionM (sessionSignature.Reply r) :=
  ExceptT.lift (StateT.lift (Dialogue.perform (S := sessionSignature) r))

/-- Was the present request of the client cancelled? -/
def isCancelled : SessionM Bool := ask .isCancelled

/-- What is debugged. -/
def launch : SessionM Launch := do
  match (← get).launch with
  | some l => return l
  | none => throw .notLaunched

/-- Fail unless the session is in one of these states. -/
def require (states : List Status) (e : SessionError) : SessionM Unit := do
  unless (← get).status.isOneOf states do throw e

/-- Report the end of the session, if it was not reported before. -/
def reportEnd : SessionM Unit := do
  unless (← get).endReported do
    modify fun s => { s with endReported := true }
    ask (.notify .terminated)

/-- The connection has failed.  Unless only the request was cancelled or took too long, that ends
    the session. -/
def connectionFailed {α : Type} (e : ConnectionError) : SessionM α := do
  match e.loss? with
  | none => throw (.connection e)
  | some why =>
    modify fun s => { s with status := .terminated }
    reportEnd
    throw (.connection (.closed why))

/-- Inject commands. -/
def inject (commands : List ServerCommand) : SessionM Unit := do
  match ← ask (.inject commands) with
  | none => return ()
  | some e => connectionFailed e

/-- Inject one command in a block that has the name of the namespace. -/
def injectOne (command : Text) : SessionM Unit := do
  inject [⟨(← get).ns, command⟩]

end SessionM

end DatapackDebug
